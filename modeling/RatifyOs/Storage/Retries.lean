import RatifyOs.Storage.Records

/-! The calls that record, on any number of connections: what each returns, and what it does
when it is repeated. -/
namespace RatifyOs.Storage
open Data Async Async.Shared
open Async.Program (call ofOption reject)

inductive Request where
  | createSession (i : NewSession)
  | appendMessage (i : NewMessage)
  | createRun (i : NewRun)
  | finishRun (id : String) (status : Completion) (finishedAt : ℤ)
  | recordFinancialEvidence (id : String) (payload : Json) (distinct : Execution.Distinct payload) (createdAt : ℤ)
  | recordToolCall (i : ToolCall) (distinct : Execution.Distinct i.arguments)
  | recordToolResult (i : ToolResult) (distinct : Execution.Distinct i.output)

inductive Record where
  | session (s : Session)
  | message (m : Message)
  | run (r : Option Run)
  | evidence (e : FinancialEvidence)
  | toolCall (c : ToolCall)
  | toolResult (r : ToolResult)

namespace Request

def program (sha256 : Text → String) : Request → SessionProgram Record
  | .createSession i => do return .session (← SessionStore.createSession i)
  | .appendMessage i => do return .message (← SessionStore.appendMessage i)
  | .createRun i => do return .run (some (← SessionStore.createRun i))
  | .finishRun id status finishedAt => do return .run (← SessionStore.finishRun id status finishedAt)
  | .recordFinancialEvidence id payload distinct createdAt => do
    return .evidence (← SessionStore.recordFinancialEvidence sha256 id payload distinct createdAt)
  | .recordToolCall i distinct => do return .toolCall (← SessionStore.recordToolCall i distinct)
  | .recordToolResult i distinct => do return .toolResult (← SessionStore.recordToolResult i distinct)

/-- A record that is in every field what the caller passed, the keys of an object in any order. -/
def Passed : Request → Record → Prop
  | .createSession i, .session s => s.id = i.id ∧ s.title = i.title ∧ s.parentSessionId = i.parentSessionId ∧
    s.parentMessageId = i.parentMessageId ∧ ∀ at_ ∈ i.createdAt, s.createdAt = at_
  | .appendMessage i, .message m => m.id = i.id ∧ m.sessionId = i.sessionId ∧ m.role = i.role ∧ m.content = i.content ∧
    m.createdAt = i.createdAt
  | .createRun i, .run (some r) => r.id = i.id ∧ r.sessionId = i.sessionId ∧ r.status = i.status ∧ r.startedAt = i.startedAt
  | .finishRun id status finishedAt, .run (some r) => r.id = id ∧ r.status = .finished status ∧ r.finishedAt = some finishedAt
  | .recordFinancialEvidence id payload _ createdAt, .evidence e => e.id = id ∧ e.payload = Execution.ordered payload ∧
    e.createdAt = createdAt
  | .recordToolCall i _, .toolCall c => c.id = i.id ∧ c.sessionId = i.sessionId ∧ c.messageId = i.messageId ∧
    c.toolName = i.toolName ∧ c.arguments = Execution.ordered i.arguments ∧ c.createdAt = i.createdAt
  | .recordToolResult i _, .toolResult r => r.id = i.id ∧ r.toolCallId = i.toolCallId ∧
    r.output = Execution.ordered i.output ∧ r.createdAt = i.createdAt ∧ r.evidenceRef = i.evidenceRef
  | _, _ => False

/-- The conflict a request throws. -/
def conflict : Request → SessionError
  | .createSession i => .thrown ("Session id conflict: " ++ i.id)
  | .appendMessage i => .thrown ("Message id conflict: " ++ i.id)
  | .createRun i => .thrown ("Run id conflict: " ++ i.id)
  | .finishRun id _ _ => .thrown ("Run completion conflict: " ++ id)
  | .recordFinancialEvidence id _ _ _ => .thrown ("Evidence id conflict: " ++ id)
  | .recordToolCall i _ => .thrown ("Tool call id conflict: " ++ i.id)
  | .recordToolResult i _ => .thrown ("Tool result conflict: " ++ i.toolCallId)

/-- What a request throws: its conflict, a constraint of the schema that failed, or that there
is no such run. -/
def Thrown (q : Request) (error : SessionError) : Prop :=
  error = q.conflict ∨ Refused error ∨ ∃ id status finishedAt, q = .finishRun id status finishedAt ∧
    error = .thrown ("Unknown run: " ++ id)

/-- What the request has recorded is there. -/
def Stored (d : SessionTables) : Request → Prop
  | .createSession i => ∃ r, d.sessions.find? i.id = some r ∧ r.title = i.title ∧ SessionTables.branchOf i = .ok r.branch ∧
    ∀ at_ ∈ i.createdAt, r.createdAt = at_
  | .appendMessage i => ∃ m, d.messages.table.find? i.id = some m ∧ m.sessionId = i.sessionId ∧ m.role = i.role ∧
    m.content = i.content ∧ m.createdAt = i.createdAt
  | .createRun i => i.status = .running ∧ ∃ r, d.runs.find? i.id = some r ∧ r.sessionId = i.sessionId ∧ r.startedAt = i.startedAt
  | .finishRun id status finishedAt => ∃ r, d.runs.find? id = some r ∧ r.finished = some (status,finishedAt)
  | .recordFinancialEvidence id payload _ createdAt => ∃ r, d.evidence.find? id = some r ∧
    r.payloadJson.text = Execution.canonicalSerialize payload ∧ r.createdAt = createdAt
  | .recordToolCall i _ => ∃ r, d.toolCalls.find? i.id = some r ∧ r.sessionId = i.sessionId ∧ r.messageId = i.messageId ∧
    r.toolName = i.toolName ∧ r.argumentsJson.text = Execution.canonicalSerialize i.arguments ∧ r.createdAt = i.createdAt
  | .recordToolResult i _ => (d.toolCalls.find? i.toolCallId).isSome ∧ ∃ r, d.resultOf i.toolCallId = some r ∧ r.id = i.id ∧
    r.outputJson.text = Execution.canonicalSerialize i.output ∧ r.createdAt = i.createdAt ∧ r.evidenceRef = i.evidenceRef

/-- No other completion has come between: the run a statement is to end is still running, or
has ended the same way. -/
def Uncontended (_ : Request) (stmt : Stmt) (d : SessionTables) (_ : ℤ) : Prop :=
  match stmt with
  | .updateRun id status finishedAt => ∀ r, d.runs.find? id = some r → r.finished = none ∨ r.finished = some (status,finishedAt)
  | _ => True

/-- A call is repeated as it was made: a session without a time of its own at the time it was
first created at, a run while it has not ended. -/
def Repeatable (q : Request) (stmt : Stmt) (d : SessionTables) (now : ℤ) : Prop :=
  match q,stmt with
  | .createSession i,.now => ∀ r, d.sessions.find? i.id = some r → r.createdAt = now
  | .createRun _,.selectRun id => ∀ r, d.runs.find? id = some r → r.finished = none
  | _,_ => True

end Request

section Rules
variable {fits : (stmt : Stmt) → SessionTables → ℤ → Prop} {d : SessionTables} {stmt : Stmt}

abbrev rely (fits : (stmt : Stmt) → SessionTables → ℤ → Prop) : Program.Spec Stmt StmtAnswer SessionError SessionTables :=
  relying meaning Extends (fun _ => True) fits

abbrev rest (fits : (stmt : Stmt) → SessionTables → ℤ → Prop) : Program.Spec Stmt StmtAnswer SessionError SessionTables :=
  still meaning Extends (fun _ => True) fits

theorem query_relies {Q : StmtAnswer stmt → SessionTables → Prop} {E : SessionError → SessionTables → Prop}
    (returns : ∀ d', Extends d d' → ∀ now, fits stmt d' now → ∀ v, (meaning now stmt d').1 = .ok v → Q v (meaning now stmt d').2)
    (refused : ∀ error d', Refused error → E error d') : (query stmt).holds (rely fits) Q E d := by
  rw [query,Program.holds_call]
  intro d' later _ now fitting
  split
  · rename_i v ok
    exact returns d' later now fitting v ok
  · rename_i error failed
    exact refused error _ (meaning_refused failed)

theorem query_rests {Q : StmtAnswer stmt → SessionTables → Prop} {E : SessionError → SessionTables → Prop}
    (returns : ∀ d', Extends d d' → ∀ now, fits stmt d' now → ∃ v, meaning now stmt d' = (.ok v,d') ∧ Q v d') :
    (query stmt).holds (rest fits) Q E d := by
  rw [query,Program.holds_call]
  intro d' later _ now fitting
  obtain ⟨v,same,good⟩ := returns d' later now fitting
  rw [same]
  exact ⟨rfl,good⟩

/-- A statement that writes. Whatever it has found there, the data are later ones. -/
theorem query_writes {Q : StmtAnswer stmt → SessionTables → Prop} {E : SessionError → SessionTables → Prop}
    (returns : ∀ d', Extends d d' → ∀ v, Q v d') (refused : ∀ error d', Refused error → E error d') :
    (query stmt).holds (rely fits) Q E d :=
  query_relies (fun _ later _ _ v _ => returns _ (later.trans (meaning_extends _ _ _)) v) refused

end Rules

theorem parse_canonical {v : Json} (t : CanonicalText) (same : t.text = Execution.canonicalSerialize v) (distinct : Execution.Distinct v) :
    parse t = pure (Execution.ordered v) := by
  rw [parse,same,Execution.parse_canonicalSerialize distinct]
  rfl

theorem exists_parse (t : CanonicalText) : ∃ v, parse t = pure v := by
  obtain ⟨v,distinct,same⟩ := t.written
  exact ⟨_,parse_canonical t same.symm distinct⟩

/-- A text is written again as it was read. -/
theorem serialize_parse {t : CanonicalText} {v : Json} (read : parse t = pure v) : Execution.canonicalSerialize v = t.text := by
  obtain ⟨w,distinct,same⟩ := t.written
  rw [parse_canonical t same.symm distinct] at read
  obtain rfl := Program.pure.inj read
  exact (Execution.serialize_ordered w).trans same

theorem eq_ordered {t : CanonicalText} {v w : Json} (read : parse t = pure v) (same : t.text = Execution.canonicalSerialize w)
    (distinct : Execution.Distinct w) : v = Execution.ordered w := by
  rw [parse_canonical t same distinct] at read
  exact (Program.pure.inj read).symm

theorem branchOf_of_parents {i : NewSession} {branch : Option (String × String)} (session : branch.map Prod.fst = i.parentSessionId)
    (message : branch.map Prod.snd = i.parentMessageId) : SessionTables.branchOf i = .ok branch := by
  rw [SessionTables.branchOf,← session,← message]
  cases branch <;> rfl

theorem Request.Stored.stays {q : Request} {d d' : SessionTables} (stored : Request.Stored d q) (later : Extends d d') :
    Request.Stored d' q := by
  cases q with
  | createSession i =>
    obtain ⟨r,found,same⟩ := stored
    exact ⟨r,find?_of_grown later.sessions found,same⟩
  | appendMessage i =>
    obtain ⟨m,found,same⟩ := stored
    exact ⟨m,find?_of_grown later.messages found,same⟩
  | createRun i =>
    obtain ⟨running,r,found,session,started⟩ := stored
    obtain ⟨r',found',after⟩ := later.runs i.id r found
    cases after with
    | same => exact ⟨running,r,found',session,started⟩
    | ended _ how => exact ⟨running,_,found',session,started⟩
  | finishRun id status finishedAt =>
    obtain ⟨r,found,own⟩ := stored
    obtain ⟨r',found',after⟩ := later.runs id r found
    cases after with
    | same => exact ⟨r,found',own⟩
    | ended running _ =>
      rw [running] at own
      cases own
  | recordFinancialEvidence id payload distinct createdAt =>
    obtain ⟨r,found,same⟩ := stored
    exact ⟨r,find?_of_grown later.evidence found,same⟩
  | recordToolCall i distinct =>
    obtain ⟨r,found,same⟩ := stored
    exact ⟨r,find?_of_grown later.toolCalls found,same⟩
  | recordToolResult i distinct =>
    obtain ⟨called,r,found,same⟩ := stored
    obtain ⟨c,there⟩ := Option.isSome_iff_exists.mp called
    refine ⟨?_,r,resultOf_of_extends later found,same⟩
    rw [find?_of_grown later.toolCalls there]
    rfl

theorem updateRun_stored {d : SessionTables} {id : String} {status : Completion} {finishedAt : ℤ} {r : RunRow}
    (found : d.runs.find? id = some r) (uncontended : r.finished = none ∨ r.finished = some (status,finishedAt)) :
    Request.Stored (d.updateRun id status finishedAt) (.finishRun id status finishedAt) := by
  unfold SessionTables.updateRun
  rw [found]
  have key : r.id = id := Table.key_of_find? found
  cases ended : r.finished with
  | some f =>
    have own : r.finished = some (status,finishedAt) := uncontended.resolve_left (by simp [ended])
    exact ⟨r,by simpa [ended] using found,own⟩
  | none =>
    refine ⟨{ r with finished := some (status,finishedAt) },?_,rfl⟩
    simp [ended,Table.find?_put,key,found]

section Relies
variable {q : Request} {d : SessionTables}

/-- What a request is to leave, where it returns and where it throws. -/
abbrev Request.Relies (q : Request) {α : Type} (p : SessionProgram α) (record : α → Record) (d : SessionTables) : Prop :=
  p.holds (rely (Request.Uncontended q)) (fun value d => q.Passed (record value) ∧ Request.Stored d q)
    (fun error _ => q.Thrown error) d

theorem refused_thrown (error : SessionError) (_ : SessionTables) (refused : Refused error) : q.Thrown error := .inr (.inl refused)

theorem appendMessage_relies (i : NewMessage) :
    (Request.appendMessage i).Relies (SessionStore.appendMessage i) .message d := by
  unfold Request.Relies SessionStore.appendMessage
  rw [Program.holds_bind]
  refine query_writes (fun d' _ _ => ?_) refused_thrown
  rw [Program.holds_bind]
  refine query_relies (fun d' _ now _ found answer => ?_) refused_thrown
  cases answer
  refine Program.holds_checked.mpr ⟨fun _ => .inl rfl,fun m found => ⟨fun _ => .inl rfl,fun same => ?_⟩⟩
  simp only [not_or,not_not] at same
  obtain ⟨session,role,content,created⟩ := same
  exact ⟨⟨Table.key_of_find? found,session,role,content,created⟩,m,found,session,role,content,created⟩

theorem createSession_relies (i : NewSession) :
    (Request.createSession i).Relies (SessionStore.createSession i) .session d := by
  have inserted (at_ : ℤ) (own : ∀ t ∈ i.createdAt, at_ = t) (d : SessionTables) :
      (Request.createSession i).Relies (do
        query (.insertSession i at_)
        let found ← SessionStore.getSession i.id
        let s ← ofOption found (.thrown ("Session id conflict: " ++ i.id))
        reject (s.title ≠ i.title ∨ s.parentSessionId ≠ i.parentSessionId ∨ s.parentMessageId ≠ i.parentMessageId ∨ s.createdAt ≠ at_)
          (.thrown ("Session id conflict: " ++ i.id))
        return s) .session d := by
    unfold Request.Relies SessionStore.getSession
    rw [Program.holds_bind]
    refine query_writes (fun d' _ _ => ?_) refused_thrown
    rw [Program.holds_bind,Program.holds_bind]
    refine query_relies (fun d' _ now _ found answer => ?_) refused_thrown
    cases answer
    refine Program.holds_checked.mpr ⟨fun _ => .inl rfl,fun s there => ⟨fun _ => .inl rfl,fun same => ?_⟩⟩
    obtain ⟨r,found,rfl⟩ := Option.map_eq_some_iff.mp there
    simp only [not_or,not_not] at same
    obtain ⟨title,session,message,created⟩ := same
    have times : ∀ t ∈ i.createdAt, r.createdAt = t := fun t given => created.trans (own t given)
    have id : r.id = i.id := Table.key_of_find? found
    exact ⟨⟨id,title,session,message,times⟩,r,found,title,branchOf_of_parents session message,times⟩
  unfold Request.Relies SessionStore.createSession
  cases given : i.createdAt with
  | some at_ => exact inserted at_ (by simp [given]) d
  | none =>
    rw [Program.holds_bind]
    exact query_relies (fun d' _ now _ v _ => inserted v (by simp [given]) d') refused_thrown

theorem createRun_relies (i : NewRun) : (Request.createRun i).Relies (SessionStore.createRun i) (fun r => .run (some r)) d := by
  unfold Request.Relies SessionStore.createRun SessionStore.getRun
  rw [Program.holds_bind]
  by_cases running : i.status = .running
  · refine query_writes (fun d' _ _ => ?_) refused_thrown
    rw [Program.holds_bind,Program.holds_bind]
    refine query_relies (fun d' _ now _ found answer => ?_) refused_thrown
    cases answer
    refine Program.holds_checked.mpr ⟨fun _ => .inl rfl,fun s there => ⟨fun _ => .inl rfl,fun same => ?_⟩⟩
    obtain ⟨r,found,rfl⟩ := Option.map_eq_some_iff.mp there
    simp only [not_or,not_not] at same
    obtain ⟨session,status,started⟩ := same
    have id : r.id = i.id := Table.key_of_find? found
    exact ⟨⟨id,session,status,started⟩,running,r,found,session,started⟩
  · refine query_relies (fun d' _ now _ v ok => ?_) refused_thrown
    simp only [meaning,SessionTables.insertRun,if_pos running] at ok
    cases ok

theorem finishRun_relies (id : String) (status : Completion) (finishedAt : ℤ) :
    (Request.finishRun id status finishedAt).Relies (SessionStore.finishRun id status finishedAt) .run d := by
  unfold Request.Relies SessionStore.finishRun SessionStore.getRun
  rw [Program.holds_bind,Program.holds_bind]
  refine query_relies (fun d' _ now _ found answer => ?_) refused_thrown
  cases answer
  cases found : d'.runs.find? id with
  | none => exact .inr (.inr ⟨id,status,finishedAt,rfl,rfl⟩)
  | some r =>
    refine (Program.holds_bind _ _).mpr ((Program.holds_ofOption _ _).mpr ⟨?_,nofun⟩)
    rintro _ ⟨⟩
    cases ended : r.finished with
    | some f =>
      simp only [runOf,ended,Option.map_some,Option.getD_some]
      rw [Program.holds_bind,Program.holds_reject]
      refine ⟨fun _ => .inl rfl,fun same => ?_⟩
      simp only [not_or,not_not,RunStatus.finished.injEq] at same
      obtain ⟨how,time⟩ := same
      have key : r.id = id := Table.key_of_find? found
      have own : r.finished = some (status,finishedAt) := by rw [ended,← how,← time]
      exact ⟨⟨key,by rw [← how],by rw [← time]⟩,r,found,own⟩
    | none =>
      simp only [runOf,ended,Option.map_none]
      rw [Program.holds_bind]
      refine query_relies (fun e later now uncontended v _ => ?_) refused_thrown
      obtain ⟨r',found',_⟩ := later.runs id r found
      have stored : Request.Stored (e.updateRun id status finishedAt) (.finishRun id status finishedAt) :=
        updateRun_stored found' (uncontended r' found')
      rw [Program.holds_bind]
      refine query_relies (fun e' later now _ found answer => ?_) refused_thrown
      cases answer
      have stored : Request.Stored e' (.finishRun id status finishedAt) := stored.stays later
      refine ⟨?_,stored⟩
      obtain ⟨r,found,own⟩ := stored
      have key : r.id = id := Table.key_of_find? found
      rw [found]
      exact ⟨key,by simp [runOf,own],by simp [runOf,own]⟩

theorem recordFinancialEvidence_relies (sha256 : Text → String) (id : String) (payload : Json)
    (distinct : Execution.Distinct payload) (createdAt : ℤ) :
    (Request.recordFinancialEvidence id payload distinct createdAt).Relies
      (SessionStore.recordFinancialEvidence sha256 id payload distinct createdAt) .evidence d := by
  unfold Request.Relies SessionStore.recordFinancialEvidence
  simp only
  rw [Program.holds_bind]
  refine query_writes (fun d' _ _ => ?_) refused_thrown
  rw [Program.holds_bind]
  refine query_relies (fun d' _ now _ found answer => ?_) refused_thrown
  cases answer
  refine Program.holds_checked.mpr ⟨fun _ => .inl rfl,fun r found => ⟨fun _ => .inl rfl,fun same => ?_⟩⟩
  simp only [not_or,not_not] at same
  obtain ⟨text,created⟩ := same
  rw [parse_canonical _ rfl distinct]
  exact ⟨⟨rfl,rfl,rfl⟩,r,found,text,created⟩

/-- What `getToolExchange` reads: the rows, with their texts as the values they were written
from, the keys in order. -/
theorem getToolExchange_relies {Q : Option SessionStore.ToolExchange → SessionTables → Prop} {id : String}
    (absent : ∀ d', d'.toolCalls.find? id = none → Q none d')
    (present : ∀ d' c arguments result, d'.toolCalls.find? id = some c → parse c.argumentsJson = pure arguments →
      (∀ t : ToolResult, result = some t → ∃ r, d'.resultOf id = some r ∧ t.id = r.id ∧ t.toolCallId = id ∧
        parse r.outputJson = pure t.output ∧ t.createdAt = r.createdAt ∧ t.evidenceRef = r.evidenceRef) →
      Q (some ⟨⟨c.id,c.sessionId,c.messageId,c.toolName,arguments,c.createdAt⟩,result⟩) d') :
    (SessionStore.getToolExchange id).holds (rely (Request.Uncontended q)) Q (fun error _ => q.Thrown error) d := by
  unfold SessionStore.getToolExchange
  rw [Program.holds_bind]
  refine query_relies (fun d' _ now _ found answer => ?_) refused_thrown
  cases answer
  cases called : d'.toolCalls.find? id with
  | none => exact absent _ called
  | some c =>
    obtain ⟨arguments,read⟩ := exists_parse c.argumentsJson
    simp only [Option.map_some]
    rw [Program.holds_bind,read]
    change Program.holds _ (SessionStore.toolResultOf id (d'.resultOf id) >>= _) _ _ _
    rw [Program.holds_bind]
    cases result : d'.resultOf id with
    | none => exact present d' c arguments none called read (by simp)
    | some r =>
      obtain ⟨output,read'⟩ := exists_parse r.outputJson
      unfold SessionStore.toolResultOf
      simp only
      rw [Program.holds_bind,read']
      refine present d' c arguments _ called read ?_
      rintro _ ⟨⟩
      exact ⟨r,result,rfl,rfl,read',rfl,rfl⟩

theorem recordToolCall_relies (i : ToolCall) (distinct : Execution.Distinct i.arguments) :
    (Request.recordToolCall i distinct).Relies (SessionStore.recordToolCall i distinct) .toolCall d := by
  unfold Request.Relies SessionStore.recordToolCall
  simp only
  rw [Program.holds_bind]
  refine query_writes (fun d' _ _ => ?_) refused_thrown
  rw [Program.holds_bind]
  refine getToolExchange_relies (fun _ _ => .inl rfl) fun d' c arguments result found read _ => ?_
  refine Program.holds_checked.mpr ⟨fun _ => .inl rfl,fun _ there => ⟨fun _ => .inl rfl,fun same => ?_⟩⟩
  cases there
  simp only [not_or,not_not] at same
  obtain ⟨session,message,name,text,created⟩ := same
  have key : c.id = i.id := Table.key_of_find? found
  have text : c.argumentsJson.text = Execution.canonicalSerialize i.arguments := (serialize_parse read).symm.trans text
  exact ⟨⟨key,session,message,name,eq_ordered read text distinct,created⟩,c,found,session,message,name,text,created⟩

theorem recordToolResult_relies (i : ToolResult) (distinct : Execution.Distinct i.output) :
    (Request.recordToolResult i distinct).Relies (SessionStore.recordToolResult i distinct) .toolResult d := by
  unfold Request.Relies SessionStore.recordToolResult
  simp only
  rw [Program.holds_bind]
  refine query_writes (fun d' _ _ => ?_) refused_thrown
  rw [Program.holds_bind]
  refine getToolExchange_relies (fun _ _ => .inl rfl) fun d' c arguments result found read results => ?_
  cases result with
  | none => exact .inl rfl
  | some t =>
    obtain ⟨r,there,id,call,read,created,ref⟩ := results t rfl
    refine Program.holds_checked.mpr ⟨fun _ => .inl rfl,fun _ there => ⟨fun _ => .inl rfl,fun same => ?_⟩⟩
    cases there
    simp only [not_or,not_not] at same
    obtain ⟨id',text,created',ref'⟩ := same
    have text : r.outputJson.text = Execution.canonicalSerialize i.output := (serialize_parse read).symm.trans text
    refine ⟨⟨id',call,eq_ordered read text distinct,created',ref'⟩,?_,r,there,id.symm.trans id',text,created.symm.trans created',
      ref.symm.trans ref'⟩
    rw [found]
    rfl

end Relies

section Rests
variable {d : SessionTables}

/-- What a request that is repeated is to do: nothing, and return. -/
abbrev Request.Rests (q : Request) {α : Type} (p : SessionProgram α) (d : SessionTables) : Prop :=
  p.holds (rest fun stmt d now => q.Uncontended stmt d now ∧ q.Repeatable stmt d now) (fun _ _ => True) (fun _ _ => False) d

theorem written_ok {result : Except SessionError SessionTables} (same : result = .ok d) : written d result = (.ok (),d) := by
  rw [same]
  rfl

theorem query_inserts {fits : (stmt : Stmt) → SessionTables → ℤ → Prop} {stmt : Stmt} {q : Request} {Q : StmtAnswer stmt → SessionTables → Prop}
    {E : SessionError → SessionTables → Prop} (stored : Request.Stored d q)
    (there : ∀ d' now, Request.Stored d' q → ∃ v, meaning now stmt d' = (.ok v,d'))
    (next : ∀ v d', Request.Stored d' q → Q v d') : (query stmt).holds (rest fits) Q E d := by
  refine query_rests fun d' later now _ => ?_
  have stored := stored.stays later
  obtain ⟨v,same⟩ := there d' now stored
  exact ⟨v,same,next v d' stored⟩

theorem add?_of_taken {t : Messages} {i : NewMessage} {m : Message} (taken : t.table.find? i.id = some m) : t.add? i = none := by
  unfold Messages.add?
  split
  · rfl
  · rename_i table inserted
    rw [(Table.insert?_eq_some_iff.mp inserted).1] at taken
    cases taken

theorem appendMessage_rests {i : NewMessage} (stored : Request.Stored d (.appendMessage i)) :
    (Request.appendMessage i).Rests (SessionStore.appendMessage i) d := by
  unfold Request.Rests SessionStore.appendMessage
  rw [Program.holds_bind]
  refine query_inserts stored ?_ fun _ d' stored => ?_
  · rintro d' now ⟨m,found,_⟩
    exact ⟨(),by simp only [meaning,SessionTables.insertMessage,add?_of_taken found]; rfl⟩
  rw [Program.holds_bind]
  refine query_rests fun d' later now _ => ⟨_,rfl,?_⟩
  obtain ⟨m,found,session,role,content,created⟩ := stored.stays later
  rw [found]
  exact Program.holds_agreed (by simp [session,role,content,created]) trivial

theorem insertSession_of_taken {i : NewSession} {at_ : ℤ} {branch : Option (String × String)} {r : SessionRow}
    (checked : SessionTables.branchOf i = .ok branch) (taken : d.sessions.find? i.id = some r) :
    d.insertSession i at_ = .ok d := by
  unfold SessionTables.insertSession
  rw [checked]
  refine Result.bind_eq_ok.mpr ⟨branch,rfl,Result.bind_eq_ok.mpr ⟨d.sessions,?_,rfl⟩⟩
  exact insertOrIgnore_of_taken taken

theorem parents_of_branchOf {i : NewSession} {branch : Option (String × String)} (checked : SessionTables.branchOf i = .ok branch) :
    branch.map Prod.fst = i.parentSessionId ∧ branch.map Prod.snd = i.parentMessageId := by
  unfold SessionTables.branchOf at checked
  split at checked
  · rename_i session message
    cases checked
    exact ⟨session.symm,message.symm⟩
  · rename_i session message
    cases checked
    exact ⟨session.symm,message.symm⟩
  · cases checked

theorem createSession_rests {i : NewSession} (stored : Request.Stored d (.createSession i)) :
    (Request.createSession i).Rests (SessionStore.createSession i) d := by
  have inserted (at_ : ℤ) (d : SessionTables) (stored : Request.Stored d (.createSession i))
      (own : ∀ r, d.sessions.find? i.id = some r → r.createdAt = at_) :
      (Request.createSession i).Rests (do
        query (.insertSession i at_)
        let found ← SessionStore.getSession i.id
        let s ← ofOption found (.thrown ("Session id conflict: " ++ i.id))
        reject (s.title ≠ i.title ∨ s.parentSessionId ≠ i.parentSessionId ∨ s.parentMessageId ≠ i.parentMessageId ∨ s.createdAt ≠ at_)
          (.thrown ("Session id conflict: " ++ i.id))
        return s) d := by
    obtain ⟨r,found,title,branch,_⟩ := stored
    have created := own r found
    unfold Request.Rests SessionStore.getSession
    rw [Program.holds_bind]
    refine query_rests fun d' later now _ => ⟨(),?_,?_⟩
    · exact written_ok (insertSession_of_taken branch (find?_of_grown later.sessions found))
    rw [Program.holds_bind,Program.holds_bind]
    refine query_rests fun d'' later' now _ => ⟨_,rfl,?_⟩
    rw [find?_of_grown (later.trans later').sessions found]
    obtain ⟨session,message⟩ := parents_of_branchOf branch
    exact Program.holds_agreed (by simp [sessionOf,title,session,message,created]) trivial
  unfold Request.Rests SessionStore.createSession
  cases given : i.createdAt with
  | some at_ =>
    refine inserted at_ d stored fun r found => ?_
    obtain ⟨r',found',_,_,times⟩ := stored
    rw [found'] at found
    cases found
    exact times at_ given
  | none =>
    rw [Program.holds_bind]
    exact query_rests fun d' later now fitting => ⟨now,rfl,inserted now d' (stored.stays later) fitting.2⟩

theorem createRun_rests {i : NewRun} (stored : Request.Stored d (.createRun i)) :
    (Request.createRun i).Rests (SessionStore.createRun i) d := by
  unfold Request.Rests SessionStore.createRun SessionStore.getRun
  rw [Program.holds_bind]
  refine query_inserts stored ?_ fun _ d' stored => ?_
  · rintro d' now ⟨running,r,found,_⟩
    have same : d'.insertRun i = .ok d' := by
      unfold SessionTables.insertRun
      rw [if_neg (by simp [running])]
      exact Result.bind_eq_ok.mpr ⟨d'.runs,insertOrIgnore_of_taken found,rfl⟩
    exact ⟨(),written_ok same⟩
  rw [Program.holds_bind,Program.holds_bind]
  refine query_rests fun d' later now fitting => ⟨_,rfl,?_⟩
  obtain ⟨running,r,found,session,started⟩ := stored.stays later
  have unfinished : r.finished = none := fitting.2 r found
  rw [found]
  exact Program.holds_agreed (by simp [runOf,session,started,running,unfinished]) trivial

theorem finishRun_rests {id : String} {status : Completion} {finishedAt : ℤ} (stored : Request.Stored d (.finishRun id status finishedAt)) :
    (Request.finishRun id status finishedAt).Rests (SessionStore.finishRun id status finishedAt) d := by
  unfold Request.Rests SessionStore.finishRun SessionStore.getRun
  rw [Program.holds_bind,Program.holds_bind]
  refine query_rests fun d' later now _ => ⟨_,rfl,?_⟩
  obtain ⟨r,found,own⟩ := stored.stays later
  rw [found]
  refine (Program.holds_bind _ _).mpr ((Program.holds_ofOption _ _).mpr ⟨?_,nofun⟩)
  rintro _ ⟨⟩
  simp only [runOf,own,Option.map_some,Option.getD_some]
  rw [Program.holds_bind,Program.holds_reject]
  exact ⟨fun other => by simp at other,fun _ => trivial⟩

theorem recordFinancialEvidence_rests (sha256 : Text → String) {id : String} {payload : Json}
    {distinct : Execution.Distinct payload} {createdAt : ℤ}
    (stored : Request.Stored d (.recordFinancialEvidence id payload distinct createdAt)) :
    (Request.recordFinancialEvidence id payload distinct createdAt).Rests
      (SessionStore.recordFinancialEvidence sha256 id payload distinct createdAt) d := by
  unfold Request.Rests SessionStore.recordFinancialEvidence
  simp only
  rw [Program.holds_bind]
  refine query_inserts stored ?_ fun _ d' stored => ?_
  · rintro d' now ⟨r,found,_⟩
    exact ⟨(),written_ok (Result.bind_eq_ok.mpr ⟨d'.evidence,insertOrIgnore_of_taken found,rfl⟩)⟩
  rw [Program.holds_bind]
  refine query_rests fun d' later now _ => ⟨_,rfl,?_⟩
  obtain ⟨r,found,text,created⟩ := stored.stays later
  rw [found]
  refine Program.holds_agreed (by simp [text,created,canonical]) ?_
  rw [parse_canonical _ rfl distinct]
  trivial

/-- What `getToolExchange` reads of rows that are there. -/
theorem getToolExchange_rests {fits : (stmt : Stmt) → SessionTables → ℤ → Prop} {id : String}
    {Q : Option SessionStore.ToolExchange → SessionTables → Prop} {E : SessionError → SessionTables → Prop}
    (present : ∀ d', Extends d d' → ∃ c, d'.toolCalls.find? id = some c ∧ ∀ arguments, parse c.argumentsJson = pure arguments →
      ∀ result : Option ToolResult, (∀ r, d'.resultOf id = some r → ∃ output, parse r.outputJson = pure output ∧
        result = some ⟨r.id,id,output,r.createdAt,r.evidenceRef⟩) →
      Q (some ⟨⟨c.id,c.sessionId,c.messageId,c.toolName,arguments,c.createdAt⟩,result⟩) d') :
    (SessionStore.getToolExchange id).holds (rest fits) Q E d := by
  unfold SessionStore.getToolExchange
  rw [Program.holds_bind]
  refine query_rests fun d' later now _ => ⟨_,rfl,?_⟩
  obtain ⟨c,found,next⟩ := present d' later
  obtain ⟨arguments,read⟩ := exists_parse c.argumentsJson
  simp only [found,Option.map_some]
  rw [Program.holds_bind,read]
  change Program.holds _ (SessionStore.toolResultOf id (d'.resultOf id) >>= _) _ _ _
  rw [Program.holds_bind]
  cases result : d'.resultOf id with
  | none => exact next arguments read none (by simp [result])
  | some r =>
    obtain ⟨output,read'⟩ := exists_parse r.outputJson
    unfold SessionStore.toolResultOf
    simp only
    rw [Program.holds_bind,read']
    refine next arguments read _ fun r' there => ?_
    rw [result] at there
    cases there
    exact ⟨output,read',rfl⟩

theorem recordToolCall_rests {i : ToolCall} {distinct : Execution.Distinct i.arguments}
    (stored : Request.Stored d (.recordToolCall i distinct)) :
    (Request.recordToolCall i distinct).Rests (SessionStore.recordToolCall i distinct) d := by
  unfold Request.Rests SessionStore.recordToolCall
  simp only
  rw [Program.holds_bind]
  refine query_inserts stored ?_ fun _ d' stored => ?_
  · rintro d' now ⟨c,found,_⟩
    exact ⟨(),written_ok (Result.bind_eq_ok.mpr ⟨d'.toolCalls,insertOrIgnore_of_taken found,rfl⟩)⟩
  rw [Program.holds_bind]
  refine getToolExchange_rests fun d' later => ?_
  obtain ⟨c,found,session,message,name,text,created⟩ := stored.stays later
  refine ⟨c,found,fun arguments read result _ => ?_⟩
  have text : Execution.canonicalSerialize arguments = Execution.canonicalSerialize i.arguments := (serialize_parse read).trans text
  exact Program.holds_agreed (by simp [session,message,name,text,created,canonical]) trivial

theorem resultOf_mem {id : String} {r : ToolResultRow} (found : d.resultOf id = some r) : d.toolResults.find? r.id = some r :=
  Table.find?_of_mem (List.mem_of_find?_eq_some found)

theorem recordToolResult_rests {i : ToolResult} {distinct : Execution.Distinct i.output}
    (stored : Request.Stored d (.recordToolResult i distinct)) :
    (Request.recordToolResult i distinct).Rests (SessionStore.recordToolResult i distinct) d := by
  unfold Request.Rests SessionStore.recordToolResult
  simp only
  rw [Program.holds_bind]
  refine query_inserts stored ?_ fun _ d' stored => ?_
  · rintro d' now ⟨_,r,found,key,_⟩
    have taken : d'.toolResults.find? i.id = some r := key ▸ resultOf_mem found
    exact ⟨(),written_ok (Result.bind_eq_ok.mpr ⟨d'.toolResults,insertOrIgnore_of_taken taken,rfl⟩)⟩
  rw [Program.holds_bind]
  refine getToolExchange_rests fun d' later => ?_
  obtain ⟨called,r,found,key,text,created,ref⟩ := stored.stays later
  obtain ⟨c,there⟩ := Option.isSome_iff_exists.mp called
  refine ⟨c,there,fun arguments read result results => ?_⟩
  obtain ⟨output,read,rfl⟩ := results r found
  have text : Execution.canonicalSerialize output = Execution.canonicalSerialize i.output := (serialize_parse read).trans text
  exact Program.holds_agreed (by simp [key,text,created,ref,canonical]) trivial

end Rests

end RatifyOs.Storage
