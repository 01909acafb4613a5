import Mathlib.Data.List.Sort
import RatifyOs.Async.System
import RatifyOs.Data.Double

/-! `ModelRouter`: one completion over the candidates that are eligible, with retries and fallback.
What a transport, the health of a candidate or an abort signal answer is arbitrary. -/
namespace RatifyOs.Agent.Models
open Async Data

structure ModelCandidate where
  id : String
  provider : String
  model : String
  transport : String
  contextWindow : Double
  supportedTools : List String
  inputCostPerMillion : Double
  outputCostPerMillion : Double
  deriving DecidableEq

/-- What the router reads of a request; its tools by their names. -/
structure ModelRequest where
  tools : Option (List String)
  requiredTools : Option (List String)
  contextTokens : Option Double
  maxOutputTokens : Option Double

structure ModelResponse (β : Type) where
  provider : String
  model : String
  rest : β

inductive ErrorKind where
  | syntaxError
  | zodError
  | typeError
  | other
  deriving DecidableEq

/-- Something thrown, as far as it is classified. -/
structure Failure where
  abort : Bool
  status : Option Double
  kind : ErrorKind
  retryAfterMs : Option Double
  deriving DecidableEq

structure ErrorClassification where
  retryable : Bool
  fallback : Bool
  rateLimited : Bool

def classifyModelError (error : Failure) : ErrorClassification :=
  if error.abort then ⟨false,false,false⟩
  else if error.status = some 429 then ⟨true,true,true⟩
  else if error.status.any fun status => status = 408 ∨ status = 425 ∨ 500 ≤ status then ⟨true,true,false⟩
  else match error.kind with
    | .syntaxError | .zodError => ⟨false,true,false⟩
    | .typeError => ⟨true,true,false⟩
    | .other => ⟨false,false,false⟩

/-- The router as its constructor leaves it, with the transports that are configured. -/
structure ModelRouter where
  candidates : List ModelCandidate
  transports : List String
  maxRetries : ℕ
  distinct : (candidates.map (·.id)).Nodup
  windows : ∀ c ∈ candidates, c.contextWindow.isFinite ∧ 0 < c.contextWindow
  costs : ∀ c ∈ candidates, ∀ cost ∈ [c.inputCostPerMillion,c.outputCostPerMillion], cost.isFinite ∧ 0 ≤ cost

section Program
variable {β : Type}

/-- What a completion asks of its surroundings. `aborted` answers with what an abort throws, and
`healthy` with the candidates that no rate limit blocks. -/
inductive Op where
  | aborted
  | healthy
  | transport (candidate : ModelCandidate)
  | recordSuccess (id : String)
  | recordRateLimit (id : String) (delay : Double)
  | jitter
  | sleep (ms : Double)

@[reducible] def Op.Ans (β : Type) : Op → Type
  | .aborted => Option Failure
  | .healthy => String → Bool
  | .transport _ => ModelResponse β
  | .recordSuccess _ | .recordRateLimit _ _ | .sleep _ => Unit
  | .jitter => Double

abbrev Completion (β α : Type) := Program Op (Op.Ans β) Failure α

abbrev Past (β : Type) := History Op (Op.Ans β) Failure

/-- The comparison that `eligible` sorts by. -/
def compareCosts (input output : Double) (a b : ModelCandidate) : Double :=
  a.inputCostPerMillion * input + a.outputCostPerMillion * output -
    (b.inputCostPerMillion * input + b.outputCostPerMillion * output)

namespace ModelRouter
variable (router : ModelRouter)

def eligible (request : ModelRequest) (isHealthy : String → Bool) : List ModelCandidate :=
  let tools := (request.requiredTools.or request.tools).getD []
  let input := request.contextTokens.getD 0
  let output := request.maxOutputTokens.getD 0
  (router.candidates.filter fun candidate => decide (input + output ≤ candidate.contextWindow) &&
    tools.all (fun tool => tool ∈ candidate.supportedTools) && isHealthy candidate.id).insertionSort
      fun a b => ¬0 < compareCosts input output a b

def notConfigured : Failure := ⟨false,none,.other,none⟩

/-- `if (request.signal?.aborted) throw abortError(request.signal.reason)` -/
def heed : Completion β Unit := do
  let aborted : Option Failure ← Program.call Op.aborted
  match aborted with
  | some reason => throw reason
  | none => return

/-- The catch block of an attempt, with what is done where there is one more. -/
def failed (candidate : ModelCandidate) (attempt : ℕ) (again : Option (Completion β (Except Failure (ModelResponse β))))
    (error : Failure) : Completion β (Except Failure (ModelResponse β)) :=
  if error.abort then throw error
  else do
    let aborted : Option Failure ← Program.call Op.aborted
    if aborted.isSome then throw error
    else if (classifyModelError error).rateLimited then do
      Program.call (Op.recordRateLimit candidate.id (Double.max 0 (error.retryAfterMs.getD 60000)))
      return .error error
    else match again with
      | none => return .error error
      | some again =>
        if (classifyModelError error).retryable then do
          let jitter : Double ← Program.call Op.jitter
          Program.call (Op.sleep (Double.ofRat (250 * 2 ^ attempt) + (jitter * 100).floor))
          again
        else return .error error

def succeeded (candidate : ModelCandidate) (response : ModelResponse β) : Completion β (Except Failure (ModelResponse β)) := do
  Program.call (Op.recordSuccess candidate.id)
  return .ok ⟨candidate.provider,candidate.model,response.rest⟩

def attemptWith (candidate : ModelCandidate) (attempt : ℕ)
    (again : Option (Completion β (Except Failure (ModelResponse β)))) : Completion β (Except Failure (ModelResponse β)) := do
  heed
  (Program.call (Op.transport candidate)).attempt (failed candidate attempt again) (succeeded candidate)

/-- The attempts of one candidate, with so many retries left after this one. -/
def attempts (candidate : ModelCandidate) : ℕ → ℕ → Completion β (Except Failure (ModelResponse β))
  | 0, attempt => attemptWith candidate attempt none
  | left + 1, attempt => attemptWith candidate attempt (some (attempts candidate left (attempt + 1)))

def fallThrough : List ModelCandidate → Option Failure → Completion β (ModelResponse β)
  | [], lastError => throw (lastError.getD notConfigured)
  | candidate :: candidates, _ =>
    if candidate.transport ∉ router.transports then fallThrough candidates (some notConfigured)
    else do
      match ← attempts candidate router.maxRetries 0 with
      | .ok response => return response
      | .error error =>
        if (classifyModelError error).fallback then fallThrough candidates (some error) else throw error

def complete (request : ModelRequest) : Completion β (ModelResponse β) := do
  heed
  let isHealthy : String → Bool ← Program.call Op.healthy
  router.fallThrough (router.eligible request isHealthy) none

end ModelRouter

/-- The calls of transports, newest first. -/
def calls (h : Past β) : List (ModelCandidate × Except Failure (ModelResponse β)) :=
  h.filterMap fun
    | ⟨.transport candidate,answer⟩ => some (candidate,answer)
    | _ => none

def answersOf (candidate : ModelCandidate) (h : Past β) : List (Except Failure (ModelResponse β)) :=
  (calls h).filterMap fun (called,answer) => if called = candidate then some answer else none

/-- It failed, in a way that another attempt may mend. -/
def Transient : Except Failure (ModelResponse β) → Prop
  | .ok _ => False
  | .error error => (classifyModelError error).retryable = true ∧ (classifyModelError error).rateLimited = false

/-- The last attempt failed, in a way that another candidate may mend. -/
def GaveUp (answers : List (Except Failure (ModelResponse β))) : Prop :=
  ∃ error older, answers = .error error :: older ∧ (classifyModelError error).fallback = true

namespace ModelRouter
variable (router : ModelRouter) (request : ModelRequest)

/-- Where the completion stands among the eligible candidates. -/
structure Standing (done rest : List ModelCandidate) (h : Past β) : Prop where
  order : ∃ isHealthy, ⟨.healthy,.ok isHealthy⟩ ∈ h ∧ router.eligible request isHealthy = done ++ rest
  past : ∀ c ∈ done, c.transport ∈ router.transports → GaveUp (answersOf c h)

/-- When a transport is called: the eligible candidates before it have given up, those after it
are untouched, and it is still worth another attempt itself. -/
structure Calls (candidate : ModelCandidate) (h : Past β) : Prop where
  turn : ∃ done rest, router.Standing request done (candidate :: rest) h ∧ ∀ c ∈ rest, answersOf c h = []
  configured : candidate.transport ∈ router.transports
  few : (answersOf candidate h).length ≤ router.maxRetries
  transient : ∀ answer ∈ answersOf candidate h, Transient answer

/-- The response is that of the last call, under the names of its candidate. -/
def Answered (response : ModelResponse β) (h : Past β) : Prop :=
  ∃ candidate given earlier, calls h = (candidate,.ok given) :: earlier ∧
    response = ⟨candidate.provider,candidate.model,given.rest⟩

/-- What is thrown comes from an abort, from the surroundings, from a failure that no other candidate
may mend, or from there being no eligible candidate that has not given up. -/
def Refused (error : Failure) (h : Past β) : Prop :=
  (∃ reason, ⟨.aborted,.ok (some reason)⟩ ∈ h) ∨ (∃ op failure, ⟨op,.error failure⟩ ∈ h ∧ ∀ c, op ≠ .transport c) ∨
  (∃ c earlier, calls h = (c,.error error) :: earlier ∧ (classifyModelError error).fallback = false) ∨
  ∃ isHealthy, ⟨.healthy,.ok isHealthy⟩ ∈ h ∧
    ∀ c ∈ router.eligible request isHealthy, c.transport ∈ router.transports → GaveUp (answersOf c h)

/-- The health tracker had nothing against the candidate when it was asked. -/
def Asked (id : String) (h : Past β) : Prop := ∃ isHealthy : String → Bool, ⟨.healthy,.ok isHealthy⟩ ∈ h ∧ isHealthy id = true

/-- The calls of transports are restricted, and what is recorded is about candidates that may be called. -/
def allow (h : Past β) : Op → Prop
  | .transport candidate => router.Calls request candidate h
  | .recordSuccess id | .recordRateLimit id _ => Asked id h
  | _ => True

end ModelRouter

section Rules
variable {router : ModelRouter} {request : ModelRequest} {done rest : List ModelCandidate} {c d : ModelCandidate}
  {answer : Except Failure (ModelResponse β)} {h h' : Past β}

theorem answersOf_same (same : calls h' = (c,answer) :: calls h) : answersOf c h' = answer :: answersOf c h := by
  simp [answersOf,same]

theorem answersOf_ne (same : calls h' = (c,answer) :: calls h) (ne : d ≠ c) : answersOf d h' = answersOf d h := by
  simp [answersOf,same,ne.symm]

theorem answersOf_frame (same : calls h' = calls h) (d : ModelCandidate) : answersOf d h' = answersOf d h := by
  rw [answersOf,same,answersOf]

namespace ModelRouter

theorem eligible_nodup (router : ModelRouter) (request : ModelRequest) (isHealthy : String → Bool) :
    (router.eligible request isHealthy).Nodup := by
  unfold eligible
  rw [(List.perm_insertionSort _ _).nodup_iff]
  exact (List.Nodup.of_map _ router.distinct).filter _

theorem Standing.frame (standing : router.Standing request done rest h) (same : calls h' = calls h) (grown : h ⊆ h') :
    router.Standing request done rest h' where
  order := by
    obtain ⟨isHealthy,asked,order⟩ := standing.order
    exact ⟨isHealthy,grown asked,order⟩
  past d inside configured := by
    rw [answersOf_frame same]
    exact standing.past d inside configured

theorem Standing.apart (standing : router.Standing request done (c :: rest) h) :
    (∀ d ∈ done, d ≠ c) ∧ ∀ d ∈ rest, d ≠ c := by
  obtain ⟨isHealthy,_,order⟩ := standing.order
  have distinct := router.eligible_nodup request isHealthy
  rw [order,List.nodup_append] at distinct
  obtain ⟨_,later,apart⟩ := distinct
  exact ⟨fun d inside => apart d inside c (.head _),fun d inside same => (List.nodup_cons.mp later).1 (same ▸ inside)⟩

theorem Standing.called (standing : router.Standing request done (c :: rest) h) (same : calls h' = (c,answer) :: calls h)
    (grown : h ⊆ h') : router.Standing request done (c :: rest) h' where
  order := by
    obtain ⟨isHealthy,asked,order⟩ := standing.order
    exact ⟨isHealthy,grown asked,order⟩
  past d inside configured := by
    rw [answersOf_ne same (standing.apart.1 d inside)]
    exact standing.past d inside configured

theorem Standing.next (standing : router.Standing request done (c :: rest) h)
    (gaveUp : c.transport ∈ router.transports → GaveUp (answersOf c h)) : router.Standing request (done ++ [c]) rest h where
  order := by
    obtain ⟨isHealthy,asked,order⟩ := standing.order
    exact ⟨isHealthy,asked,order.trans (by simp)⟩
  past d inside configured := by
    rcases List.mem_append.mp inside with before | last
    · exact standing.past d before configured
    · rw [List.mem_singleton.mp last] at configured ⊢
      exact gaveUp configured

theorem Asked.mono {id : String} (asked : Asked id h) (grown : h ⊆ h') : Asked id h' := by
  obtain ⟨isHealthy,inside,healthy⟩ := asked
  exact ⟨isHealthy,grown inside,healthy⟩

theorem Standing.asked (standing : router.Standing request done (c :: rest) h) : Asked c.id h := by
  obtain ⟨isHealthy,asked,order⟩ := standing.order
  have inside : c ∈ router.eligible request isHealthy := order ▸ List.mem_append_right _ (.head _)
  rw [eligible,List.mem_insertionSort,List.mem_filter,Bool.and_eq_true] at inside
  exact ⟨isHealthy,asked,inside.2.2⟩

/-- A candidate with so many retries left after the attempt that is due. -/
structure Trying (router : ModelRouter) (request : ModelRequest) (done rest : List ModelCandidate) (c : ModelCandidate)
    (left : ℕ) (h : Past β) : Prop where
  standing : router.Standing request done (c :: rest) h
  future : ∀ d ∈ rest, answersOf d h = []
  budget : (answersOf c h).length + left = router.maxRetries
  transient : ∀ answer ∈ answersOf c h, Transient answer

/-- How the attempts of a candidate end. -/
def Ends (router : ModelRouter) (request : ModelRequest) (done rest : List ModelCandidate) (c : ModelCandidate) :
    Except Failure (ModelResponse β) → Past β → Prop
  | .ok response,h => Answered response h
  | .error error,h => router.Standing request done (c :: rest) h ∧ (∀ d ∈ rest, answersOf d h = []) ∧
      ∃ earlier, calls h = (c,.error error) :: earlier

variable {left : ℕ}

theorem Trying.frame (trying : Trying router request done rest c left h) (same : calls h' = calls h) (grown : h ⊆ h') :
    Trying router request done rest c left h' where
  standing := trying.standing.frame same grown
  future d inside := (answersOf_frame same d).trans (trying.future d inside)
  budget := answersOf_frame same c ▸ trying.budget
  transient := answersOf_frame same c ▸ trying.transient

theorem Trying.calls (trying : Trying router request done rest c left h) (configured : c.transport ∈ router.transports) :
    router.Calls request c h where
  turn := ⟨done,rest,trying.standing,trying.future⟩
  configured := configured
  few := Nat.le.intro trying.budget
  transient := trying.transient

theorem Trying.ends {error : Failure} (trying : Trying router request done rest c left h)
    (same : Models.calls h' = (c,.error error) :: Models.calls h) (grown : h ⊆ h') :
    Ends router request done rest c (.error error) h' :=
  ⟨trying.standing.called same grown,
    fun d inside => (answersOf_ne same (trying.standing.apart.2 d inside)).trans (trying.future d inside),_,same⟩

theorem Trying.again {error : Failure} (trying : Trying router request done rest c (left + 1) h)
    (same : Models.calls h' = (c,.error error) :: Models.calls h) (grown : h ⊆ h')
    (transient : Transient (.error error : Except Failure (ModelResponse β))) : Trying router request done rest c left h' where
  standing := trying.standing.called same grown
  future d inside := (answersOf_ne same (trying.standing.apart.2 d inside)).trans (trying.future d inside)
  budget := by
    have budget := trying.budget
    rw [answersOf_same same,List.length_cons]
    omega
  transient answer inside := by
    rw [answersOf_same same] at inside
    rcases List.mem_cons.mp inside with rfl | earlier
    · exact transient
    · exact trying.transient answer earlier

theorem heed_wp {Q : Unit → Past β → Prop} (proceeds : Q () (⟨.aborted,.ok none⟩ :: h)) :
    Program.wp (router.allow request) heed Q (router.Refused request) h := by
  rw [heed,Program.wp_bind,Program.wp_call]
  refine ⟨trivial,fun (reason : Option Failure) => ?_,fun failure => ?_⟩
  · cases reason with
    | none => exact proceeds
    | some reason => exact .inl ⟨reason,.head _⟩
  · exact .inr (.inl ⟨_,failure,.head _,fun c same => by cases same⟩)

theorem failed_wp {error : Failure} {again : Option (Completion β (Except Failure (ModelResponse β)))} (attempt : ℕ)
    (trying : Trying router request done rest c left h) (same : Models.calls h' = (c,.error error) :: Models.calls h)
    (grown : h ⊆ h')
    (retries : ∀ p, again = some p → ∃ fewer, left = fewer + 1 ∧ ∀ h, Trying router request done rest c fewer h →
      p.wp (router.allow request) (Ends router request done rest c) (router.Refused request) h) :
    (failed c attempt again error).wp (router.allow request) (Ends router request done rest c) (router.Refused request) h' := by
  have outside {op : Op} {failure : Failure} (h : Past β) (other : ∀ c, op ≠ .transport c) :
      router.Refused request failure (⟨op,.error failure⟩ :: h) := .inr (.inl ⟨op,failure,.head _,other⟩)
  unfold failed
  rw [Program.wp_ite]
  constructor
  · intro abort
    exact .inr (.inr (.inl ⟨c,_,same,by simp [classifyModelError,abort]⟩))
  · intro _
    rw [Program.wp_bind,Program.wp_call]
    refine ⟨trivial,fun (aborted : Option Failure) => ?_,fun failure => outside _ fun c same => by cases same⟩
    rw [Program.wp_ite]
    constructor
    · intro heard
      obtain ⟨reason,rfl⟩ := Option.isSome_iff_exists.mp heard
      exact .inl ⟨reason,.head _⟩
    · intro _
      rw [Program.wp_ite]
      constructor
      · intro _
        rw [Program.wp_bind,Program.wp_call]
        refine ⟨trying.standing.asked.mono fun entry inside => .tail _ (grown inside),fun _ => ?_,
          fun failure => outside _ fun c same => by cases same⟩
        exact trying.ends same (fun entry inside => .tail _ (.tail _ (grown inside)))
      · intro notLimited
        cases again with
        | none => exact trying.ends same (fun entry inside => .tail _ (grown inside))
        | some p =>
          obtain ⟨fewer,rfl,retry⟩ := retries p rfl
          change Program.wp _ (if _ then _ else _) _ _ _
          rw [Program.wp_ite]
          constructor
          · intro retryable
            rw [Program.wp_bind,Program.wp_call]
            refine ⟨trivial,fun jitter => ?_,fun failure => outside _ fun c same => by cases same⟩
            rw [Program.wp_bind,Program.wp_call]
            refine ⟨trivial,fun _ => ?_,fun failure => outside _ fun c same => by cases same⟩
            exact retry _ (trying.again same (fun entry inside => .tail _ (.tail _ (.tail _ (grown inside))))
              ⟨retryable,Bool.eq_false_iff.mpr notLimited⟩)
          · intro _
            exact trying.ends same (fun entry inside => .tail _ (grown inside))

theorem attemptWith_wp {again : Option (Completion β (Except Failure (ModelResponse β)))} (attempt : ℕ)
    (configured : c.transport ∈ router.transports) (trying : Trying router request done rest c left h)
    (retries : ∀ p, again = some p → ∃ fewer, left = fewer + 1 ∧ ∀ h, Trying router request done rest c fewer h →
      p.wp (router.allow request) (Ends router request done rest c) (router.Refused request) h) :
    (attemptWith c attempt again).wp (router.allow request) (Ends router request done rest c) (router.Refused request) h := by
  rw [attemptWith,Program.wp_bind]
  apply heed_wp
  have due : Trying router request done rest c left (⟨.aborted,.ok none⟩ :: h) :=
    trying.frame rfl (List.subset_cons_self _ _)
  rw [Program.wp_attempt,Program.wp_call]
  refine ⟨due.calls configured,fun response => ?_,fun error => ?_⟩
  · rw [succeeded,Program.wp_bind,Program.wp_call]
    refine ⟨due.standing.asked.mono (List.subset_cons_self _ _),fun _ => ⟨c,response,_,rfl,rfl⟩,fun failure => ?_⟩
    exact .inr (.inl ⟨_,failure,.head _,fun c same => by cases same⟩)
  · exact failed_wp attempt due rfl (List.subset_cons_self _ _) retries

theorem attempts_wp (configured : c.transport ∈ router.transports) (left attempt : ℕ) {h : Past β}
    (trying : Trying router request done rest c left h) :
    (attempts c left attempt).wp (router.allow request) (Ends router request done rest c) (router.Refused request) h := by
  induction left generalizing attempt h with
  | zero => exact attemptWith_wp attempt configured trying fun p none_ => by cases none_
  | succ left ih =>
    refine attemptWith_wp attempt configured trying fun p same => ⟨left,rfl,fun h trying => ?_⟩
    rw [← Option.some.inj same]
    exact ih (attempt + 1) trying

theorem fallThrough_wp (rest done : List ModelCandidate) (lastError : Option Failure) {h : Past β}
    (standing : router.Standing request done rest h) (future : ∀ d ∈ rest, answersOf d h = []) :
    (router.fallThrough rest lastError).wp (router.allow request) Answered (router.Refused request) h := by
  induction rest generalizing done lastError h with
  | nil =>
    obtain ⟨isHealthy,asked,order⟩ := standing.order
    refine .inr (.inr (.inr ⟨isHealthy,asked,fun c inside => standing.past c ?_⟩))
    rwa [order,List.append_nil] at inside
  | cons c rest ih =>
    have later : ∀ d ∈ rest, answersOf d h = [] := fun d inside => future d (.tail _ inside)
    rw [fallThrough]
    by_cases configured : c.transport ∈ router.transports
    · rw [if_neg (not_not.mpr configured),Program.wp_bind]
      have trying : Trying router request done rest c router.maxRetries h :=
        ⟨standing,later,by simp [future c (.head _)],by simp [future c (.head _)]⟩
      refine Program.wp_mono _ (attempts_wp configured _ 0 trying) (fun result h ends => ?_) fun _ _ refused => refused
      cases result with
      | ok response => exact ends
      | error error =>
        obtain ⟨standing,later,earlier,same⟩ := ends
        change Program.wp _ (if _ then _ else _) _ _ _
        rw [Program.wp_ite]
        constructor
        · intro fallback
          refine ih _ _ (standing.next fun _ => ⟨error,earlier.filterMap fun (called,answer) =>
            if called = c then some answer else none,?_,fallback⟩) later
          simp [answersOf,same]
        · intro stays
          exact .inr (.inr (.inl ⟨c,earlier,same,Bool.eq_false_iff.mpr stays⟩))
    · rw [if_pos configured]
      exact ih _ _ (standing.next fun yes => absurd yes configured) later

theorem complete_wp (router : ModelRouter) (request : ModelRequest) :
    (router.complete request : Completion β (ModelResponse β)).wp (router.allow request) Answered (router.Refused request) [] := by
  rw [complete,Program.wp_bind]
  apply heed_wp
  rw [Program.wp_bind,Program.wp_call]
  refine ⟨trivial,fun (isHealthy : String → Bool) => ?_,fun failure => ?_⟩
  · refine fallThrough_wp _ [] none ⟨⟨isHealthy,.head _,rfl⟩,fun c none_ => absurd none_ List.not_mem_nil⟩ fun _ _ => rfl
  · exact .inr (.inl ⟨_,failure,.head _,fun c same => by cases same⟩)

/-- What a moment brings: the clock, the abort signal of the request, the reply of a transport and the jitter. -/
structure Choice (β : Type) where
  now : Double
  aborted : Option Failure
  reply : Except Failure (ModelResponse β)
  jitter : Double

/-- Over the map of `RateLimitHealthTracker`. -/
def handle (choice : Choice β) : (op : Op) → (String → Option Double) → Except Failure (op.Ans β) × (String → Option Double)
  | .aborted,blockedUntil => (.ok choice.aborted,blockedUntil)
  | .healthy,blockedUntil => (.ok fun id => decide ((blockedUntil id).getD 0 ≤ choice.now),blockedUntil)
  | .transport _,blockedUntil => (choice.reply,blockedUntil)
  | .recordSuccess id,blockedUntil => (.ok (),Function.update blockedUntil id none)
  | .recordRateLimit id delay,blockedUntil => (.ok (),Function.update blockedUntil id (some (choice.now + delay)))
  | .jitter,blockedUntil => (.ok choice.jitter,blockedUntil)
  | .sleep _,blockedUntil => (.ok (),blockedUntil)

/-- Any number of completions at once; a restart forgets the limits. -/
def requests (router : ModelRouter) : System Op (Op.Ans β) Failure (String → Option Double) ModelRequest (Choice β) where
  program request := do
    let _ ← (router.complete request : Completion β (ModelResponse β))
  handle := handle
  ambient _ blockedUntil := blockedUntil
  restart _ := fun _ => none

/-- What holds of any request alike. -/
def told (h : Past β) : Op → Prop
  | .transport candidate => Asked candidate.id h
  | .recordSuccess id | .recordRateLimit id _ => Asked id h
  | _ => True

theorem wp_told {α : Type} {Q : α → Past β → Prop} {E : Failure → Past β → Prop} (p : Completion β α)
    (good : p.wp (router.allow request) Q E h) : p.wp told (fun _ _ => True) (fun _ _ => True) h := by
  induction p generalizing h with
  | pure => trivial
  | throw => trivial
  | perform op next ih =>
    refine ⟨?_,fun answer => ih answer (good.2 answer)⟩
    have allowed := good.1
    cases op with
    | transport candidate =>
      obtain ⟨done,rest,standing,_⟩ := allowed.turn
      exact standing.asked
    | recordSuccess id => exact allowed
    | recordRateLimit id delay => exact allowed
    | aborted | healthy | jitter | sleep => trivial

theorem requests_told (router : ModelRouter) (request : ModelRequest) :
    ((requests router).program request).wp (told (β := β)) (fun _ _ => True) (fun _ _ => True) [] := by
  change Program.wp told (router.complete request >>= fun _ => pure ()) _ _ []
  rw [Program.wp_bind]
  exact wp_told _ (router.complete_wp request)

abbrev Site (β : Type) := Config Op (Op.Ans β) Failure (String → Option Double)

theorem free_step {site : Site β} (free : ∀ i, site.count ≤ i → site.threads i = none) (event : Async.Event ModelRequest (Choice β)) :
    ∀ i, ((requests router).step site event).count ≤ i → ((requests router).step site event).threads i = none := by
  intro i later
  cases event with
  | start call =>
    have other : i ≠ site.count := fun same => absurd later (by simp [System.step,same])
    simp only [System.step] at later ⊢
    rw [Function.update_of_ne other]
    exact free i (Nat.le_of_succ_le later)
  | perform j choice =>
    rcases (requests router).perform_cases site j choice with ⟨op,next,history,here⟩ | idle
    · rw [(requests router).perform_eq here] at later ⊢
      have other : i ≠ j := fun same => absurd (here.symm.trans (same ▸ free i later)) (by simp)
      exact (Function.update_of_ne other _ _).trans (free i later)
    · rw [idle] at later ⊢
      exact free i later
  | ambient choice => exact free i later
  | crash => rfl

/-- The limit is not over for anyone who asks, and no request from before records anything about the candidate. -/
def Limited (id : String) (until_ : Double) (count : ℕ) (site : Site β) : Async.Event ModelRequest (Choice β) → Prop
  | .start _ | .ambient _ => True
  | .crash => False
  | .perform i choice => ∀ op next history, site.threads i = some ⟨.perform op next,history⟩ → match op with
    | .healthy => ¬until_ ≤ choice.now
    | .recordSuccess other | .recordRateLimit other _ => i < count → other ≠ id
    | _ => True

/-- The requests from a number on leave the candidate alone. -/
structure Rests (id : String) (until_ : Double) (count : ℕ) (site : Site β) : Prop where
  limit : site.state id = some until_
  warned : ∀ i thread, count ≤ i → site.threads i = some thread → ¬Asked id thread.history
  untouched : ∀ i thread, count ≤ i → site.threads i = some thread →
    ∀ candidate answer, ⟨.transport candidate,answer⟩ ∈ thread.history → candidate.id ≠ id

theorem Rests.step {id : String} {until_ : Double} {count : ℕ} {site : Site β} {event : Async.Event ModelRequest (Choice β)}
    (obeys : System.Obeys told (fun _ => True) site) (limited : Limited id until_ count site event)
    (rests : Rests id until_ count site) : Rests id until_ count ((requests router).step site event) := by
  cases event with
  | start call =>
    refine ⟨rests.limit,fun i thread later found => ?_,fun i thread later found => ?_⟩
    · rcases System.thread_updated found with ⟨_,rfl⟩ | ⟨_,there⟩
      · rintro ⟨_,inside,_⟩
        exact absurd inside List.not_mem_nil
      · exact rests.warned i thread later there
    · rcases System.thread_updated found with ⟨_,rfl⟩ | ⟨_,there⟩
      · exact fun _ _ inside => absurd inside List.not_mem_nil
      · exact rests.untouched i thread later there
  | ambient choice => exact rests
  | crash => exact limited.elim
  | perform j choice =>
    rcases (requests router).perform_cases site j choice with ⟨op,next,history,here⟩ | idle
    · have condition := limited op next history here
      have allowed : told history op := obeys.allowed here
      have unasked : count ≤ j → ¬Asked id history := fun later => rests.warned j _ later here
      rw [(requests router).perform_eq here]
      refine ⟨?_,fun i thread later found => ?_,fun i thread later found => ?_⟩
      · have spared (other : String) (asked : Asked other history) (older : j < count → other ≠ id)
            (value : Option Double) : Function.update site.state other value id = some until_ := by
          have ne : id ≠ other := by
            rintro rfl
            rcases Nat.lt_or_ge j count with before | later
            · exact older before rfl
            · exact unasked later asked
          rw [Function.update_of_ne ne]
          exact rests.limit
        cases op with
        | recordSuccess other => exact spared other allowed condition none
        | recordRateLimit other delay => exact spared other allowed condition _
        | aborted | healthy | transport | jitter | sleep => exact rests.limit
      · rcases System.thread_updated found with ⟨rfl,rfl⟩ | ⟨_,there⟩
        · rintro ⟨isHealthy,inside,healthy⟩
          rcases List.mem_cons.mp inside with new | old
          · cases op with
            | healthy =>
              have answer : isHealthy = fun id => decide ((site.state id).getD 0 ≤ choice.now) := by
                simpa [requests,handle] using new
              rw [answer] at healthy
              have passed := of_decide_eq_true healthy
              rw [rests.limit] at passed
              exact condition passed
            | _ => cases new
          · exact unasked later ⟨isHealthy,old,healthy⟩
        · exact rests.warned i thread later there
      · rcases System.thread_updated found with ⟨rfl,rfl⟩ | ⟨_,there⟩
        · intro candidate answer inside
          rcases List.mem_cons.mp inside with new | old
          · rintro rfl
            cases new
            exact unasked later allowed
          · exact rests.untouched i _ later here candidate answer old
        · exact rests.untouched i thread later there
    · rw [idle]
      exact rests

/-- A candidate that is limited until a time is not called before it by any request that begins after the limit was
recorded, and the limit stands, whatever the requests do between them. -/
theorem limited_rests (router : ModelRouter) (before after : List (Async.Event ModelRequest (Choice β))) (id : String)
    (until_ : Double) (limit : ((requests router).run (.initial fun _ => none) before).state id = some until_)
    (meets : (requests router).Meets (Limited id until_ ((requests router).run (.initial fun _ => none) before).count)
      ((requests router).run (.initial fun _ => none) before) after) :
    Rests id until_ ((requests router).run (.initial fun _ => none) before).count
      ((requests router).run (.initial fun _ => none) (before ++ after)) := by
  rw [System.run_append]
  have always : (requests router).Meets (fun (_ : Site β) _ => True) (.initial fun _ => none) before :=
    (requests router).meets_of_forall (fun _ _ => trivial) _ _
  obtain ⟨obeys,free⟩ := (requests router).run_induction (requests_told router) (fun _ _ => True)
    (fun site => ∀ i, site.count ≤ i → site.threads i = none) (fun site event _ _ free => free_step free event)
    (System.obeys_initial _) (fun _ _ => rfl) before always
  have start : Rests id until_ ((requests router).run (.initial fun _ => none) before).count
      ((requests router).run (.initial fun _ => none) before) :=
    ⟨limit,fun i thread later found => absurd (found.symm.trans (free i later)) (by simp),
      fun i thread later found => absurd (found.symm.trans (free i later)) (by simp)⟩
  exact ((requests router).run_induction (requests_told router) _ _ (fun site event obeys limited rests =>
    rests.step obeys limited) obeys start after meets).2

namespace Sample

private def candidate : ModelCandidate := ⟨"a","provider","model","http",1,[],0,0⟩

private def alone : ModelRouter where
  candidates := [candidate]
  transports := ["http"]
  maxRetries := 1
  distinct := List.nodup_singleton _
  windows := by decide +kernel
  costs := by decide +kernel

private def asking : ModelRequest := ⟨none,none,none,none⟩

private def dropped : Failure := ⟨false,none,.typeError,none⟩

private def limited : Failure := ⟨false,some 429,.other,some 5⟩

private def moment (reply : Except Failure (ModelResponse Unit)) : Choice Unit := ⟨0,none,reply,0⟩

/-- The endpoint answers 429 to the first request; a second one begins. -/
private def first : List (Async.Event ModelRequest (Choice Unit)) :=
  .start asking :: List.replicate 6 (.perform 0 (moment (.error limited)))

private def second : List (Async.Event ModelRequest (Choice Unit)) :=
  .start asking :: List.replicate 3 (.perform 1 (moment (.ok ⟨"","",()⟩)))

private theorem early {count : ℕ} (one : count = 1) (site : Site Unit) (reply : Except Failure (ModelResponse Unit)) :
    Limited "a" (.finite 5) count site (.perform 1 (moment reply)) := by
  intro op next history _
  have early : ¬(Double.finite 5 ≤ (0 : Double)) := by decide +kernel
  cases op with
  | healthy => exact early
  | recordSuccess | recordRateLimit => exact fun before => absurd (one ▸ before) (Nat.lt_irrefl 1)
  | aborted | transport | jitter | sleep => trivial

theorem limited_rests_next : Rests "a" (.finite 5) 1 ((requests alone).run (.initial fun _ => none) (first ++ second)) := by
  have one : ((requests alone).run (.initial fun _ => none) first : Site Unit).count = 1 := by decide +kernel
  have limit : ((requests alone).run (.initial fun _ => none) first : Site Unit).state "a" = some (.finite 5) := by
    decide +kernel
  have rests := limited_rests alone first second "a" (.finite 5) limit ⟨trivial,early one _ _,early one _ _,early one _ _,trivial⟩
  rwa [one] at rests

end Sample

end ModelRouter

end Rules

end Program

end RatifyOs.Agent.Models
