import RatifyOs.Agent.Budget

/-! The protocol of a run: which events a consumer is given, whom it asks, and what a provider
is shown. -/
namespace RatifyOs.Agent
open Data Async
open Async.Program (attempt call ofOption onlyIf reject wp)

namespace AgentEvent

def terminal : AgentEvent → Bool
  | runCompleted _ _ _ => true
  | runFailed _ _ => true
  | runCancelled => true
  | _ => false

end AgentEvent

/-- The events a consumer was given, newest first. -/
def events : Past → List AgentEvent
  | [] => []
  | ⟨.emit event,_⟩ :: h => event :: events h
  | _ :: h => events h

/-- The answers of the model that were accepted, newest first. -/
def responses : Past → List Assistant
  | [] => []
  | ⟨.emit (.modelResponded _ message),_⟩ :: h => message :: responses h
  | _ :: h => responses h

/-- The providers that were asked and what came of it, newest first. -/
def asked : Past → List (ℕ × Except Failure ModelResponse)
  | [] => []
  | ⟨.complete index _,answer⟩ :: h => (index,answer) :: asked h
  | _ :: h => asked h

/-- A provider that rejects has failed, and so has one whose answer is malformed. -/
def Failed (answer : Except Failure ModelResponse) : Prop := ∀ message, answer.bind validateResponse ≠ .ok message

/-- A tool of effect `proposal` has returned. -/
def Proposed (h : Past) : Prop := ∃ tool result after before, h = after ++ ⟨.dispatch tool,.ok result⟩ :: before ∧
  ⟨.classify tool.name,.ok (some .proposal)⟩ ∈ before

/-- A message of an assistant with the calls that were carried out for it and their results. -/
structure Turn where
  message : Assistant
  results : List (ToolCall × Value)

section Protocol
variable (o : RuntimeOptions)

def reply (r : ToolCall × Value) : AgentMessage := .tool (stableStringify o.locale r.2) r.1.id r.1.name

namespace Turn

def messages (t : Turn) : List AgentMessage := .assistant t.message :: t.results.map (reply o)

/-- There is one result for each call, in order, and the tool has given it. -/
structure Answered (h : Past) (t : Turn) : Prop where
  calls : t.message.toolCalls.map toolCall = t.results.map fun r => some r.1
  given : ∀ r ∈ t.results, ⟨.dispatch r.1,.ok r.2⟩ ∈ h

end Turn

/-- What is shown is what the run was given, and then each of these answers with its results. -/
def Paired (messages shown : List AgentMessage) (answers : List Assistant) (h : Past) : Prop :=
  ∃ turns : List Turn, (∀ t ∈ turns, t.Answered h) ∧ turns.map Turn.message = answers.reverse ∧
    shown = messages ++ turns.flatMap (Turn.messages o)

/-- What is true whenever a provider is asked. -/
structure MayAsk (messages : List AgentMessage) (h : Past) (index : ℕ) (shown : List AgentMessage) : Prop where
  paired : Paired o messages shown (responses h) h
  forward : ∀ earlier ∈ asked h, earlier.1 ≤ index ∧ (Failed earlier.2 → earlier.1 < index)
  loyal : Proposed h → (asked h).head?.map Prod.fst = some index

/-- `run.started` came first, and nothing has ended the run. -/
def Running (h : Past) : Prop := ∃ others, events h = others ++ [.runStarted] ∧ ∀ event ∈ others, event.terminal = false

/-- `run.started` came first, and the one terminal event is the last. -/
def Ended (h : Past) : Prop := ∃ last others, events h = last :: (others ++ [.runStarted]) ∧ last.terminal = true ∧
  ∀ event ∈ others, event.terminal = false

structure WellFormed (messages : List AgentMessage) (h : Past) : Prop where
  ended : Ended h
  asks : ∀ after index shown answer before, h = after ++ ⟨.complete index shown,answer⟩ :: before →
    MayAsk o messages before index shown

end Protocol

namespace Failure

/-- There is nothing to report of it: `String` throws as well. -/
def Mute (error : Failure) : Prop := ∀ text, error.text ≠ .ok text

end Failure

/-- What a hook, a classification, a tool or a provider has thrown, while nothing has replaced it. -/
def pending : Past → Option Failure
  | ⟨.aborted,_⟩ :: h => pending h
  | ⟨.persistToolLifecycle .failed _ _ _,.ok _⟩ :: h => pending h
  | ⟨.persistToolLifecycle _ _ _ _,.error error⟩ :: _ => some error
  | ⟨.persistMessage (.tool _ _ _),_⟩ :: _ => none
  | ⟨.persistMessage _,.error error⟩ :: _ => some error
  | ⟨.classify _,.error error⟩ :: _ => some error
  | ⟨.dispatch _,.error error⟩ :: _ => some error
  | ⟨.complete _ _,.error error⟩ :: _ => some error
  | _ => none

/-- The `catch` of the run is left with what has no text, though nothing was aborted. -/
def Unspoken : Past → Prop
  | ⟨.aborted,answer⟩ :: h => answer ≠ .ok true ∧ ∃ error, pending h = some error ∧ error.Mute
  | _ => False

def Finished (q : Run Unit) : Prop := q = .pure () ∨ ∃ error, q = .throw error

namespace Op

/-- What asks nobody anything and ends nothing. -/
def calm : Op → Bool
  | complete _ _ => false
  | classify _ => false
  | emit (.modelResponded _ _) => false
  | emit event => !event.terminal
  | _ => true

end Op

/-- Some tool was classified as of effect `proposal`. -/
def Hinted (h : Past) : Prop := ∃ name, ⟨.classify name,.ok (some .proposal)⟩ ∈ h

theorem Proposed.hinted {h : Past} (proposed : Proposed h) : Hinted h := by
  obtain ⟨tool,result,after,before,rfl,known⟩ := proposed
  exact ⟨tool.name,by simp [known]⟩

/-- What the events and the requests of a run depend on is as it was. -/
structure Kept (h h' : Past) : Prop where
  asked : asked h' = asked h
  responses : responses h' = responses h
  running : Running h → Running h'
  recorded : h ⊆ h'

structure Quiet (h h' : Past) : Prop extends Kept h h' where
  hinted : Hinted h' → Hinted h

theorem Running.emit {h : Past} (running : Running h) {event : AgentEvent} (inner : event.terminal = false)
    (answer : Except Failure Unit) : Running (⟨.emit event,answer⟩ :: h) := by
  obtain ⟨others,started,before⟩ := running
  refine ⟨event :: others,congrArg (List.cons event) started,?_⟩
  exact List.forall_mem_cons.mpr ⟨inner,before⟩

section Rules
variable {h h' h'' : Past}

theorem Kept.refl (h : Past) : Kept h h := ⟨rfl,rfl,id,List.Subset.refl h⟩

theorem Kept.trans (first : Kept h h') (second : Kept h' h'') : Kept h h'' :=
  ⟨second.asked.trans first.asked,second.responses.trans first.responses,fun running => second.running (first.running running),
    List.Subset.trans first.recorded second.recorded⟩

theorem Quiet.refl (h : Past) : Quiet h h := ⟨.refl h,id⟩

theorem Quiet.trans (first : Quiet h h') (second : Quiet h' h'') : Quiet h h'' :=
  ⟨first.toKept.trans second.toKept,fun hinted => first.hinted (second.hinted hinted)⟩

theorem Kept.classify (name : String) (answer : Except Failure (Option ToolEffect)) : Kept h (⟨.classify name,answer⟩ :: h) :=
  ⟨rfl,rfl,id,List.subset_cons_self _ _⟩

/-- One calm effect. -/
theorem Quiet.perform (op : Op) (calm : op.calm = true) (answer : Except Failure (Ans op)) : Quiet h (⟨op,answer⟩ :: h) := by
  have recorded : h ⊆ ⟨op,answer⟩ :: h := List.subset_cons_self _ _
  have hinted : Hinted (⟨op,answer⟩ :: h) → Hinted h := by
    rintro ⟨name,inside⟩
    obtain same | before := List.mem_cons.mp inside
    · cases same
      cases calm
    · exact ⟨name,before⟩
  cases op with
  | complete index shown => cases calm
  | classify name => cases calm
  | emit event =>
    cases event with
    | modelResponded provider message => cases calm
    | runCompleted message iterations toolCalls => cases calm
    | runFailed code message => cases calm
    | runCancelled => cases calm
    | _ => exact ⟨⟨rfl,rfl,fun running => running.emit rfl answer,recorded⟩,hinted⟩
  | _ => exact ⟨⟨rfl,rfl,id,recorded⟩,hinted⟩

theorem runtime_not_mute (code : RuntimeErrorCode) (message : String) : ¬(Failure.runtime code message).Mute :=
  fun mute => mute message rfl

/-- What `String` throws has a text itself. -/
theorem text_not_mute {error thrown : Failure} (failed : error.text = .error thrown) : ¬thrown.Mute := by
  intro mute
  cases error with
  | runtime code message => cases failed
  | other text =>
    cases text with
    | some text => cases failed
    | none =>
      cases failed
      exact mute _ rfl

theorem validateResponse_not_mute {response : ModelResponse} {error : Failure} (failed : validateResponse response = .error error) :
    ¬error.Mute := by
  unfold validateResponse at failed
  split at failed
  · cases failed
  · cases failed
  · cases failed
    exact runtime_not_mute _ _

/-- What is thrown has a text, unless it was thrown at the run itself. -/
def Thrown (error : Failure) (h : Past) : Prop := error.Mute → pending h = some error

theorem Thrown.runtime (code : RuntimeErrorCode) (message : String) (h : Past) : Thrown (.runtime code message) h :=
  fun mute => absurd mute (runtime_not_mute code message)

theorem wp_aborted {allow : Past → Op → Prop} {Q : Bool → Past → Prop} {E : Failure → Past → Prop} (may : allow h .aborted)
    (after : ∀ flag answer, (answer = .ok true → flag = true) → Q flag (⟨.aborted,answer⟩ :: h)) : wp allow aborted Q E h := by
  refine ⟨may,fun answer => ?_⟩
  cases answer with
  | ok flag => exact after flag (.ok flag) fun same => Except.ok.inj same
  | error error => exact after false (.error error) fun same => nomatch same

theorem wp_timedOut {allow : Past → Op → Prop} {Q : Bool → Past → Prop} {E : Failure → Past → Prop} (may : allow h .timedOut)
    (after : ∀ flag answer, Q flag (⟨.timedOut,answer⟩ :: h)) : wp allow timedOut Q E h := by
  refine ⟨may,fun answer => ?_⟩
  cases answer with
  | ok flag => exact after flag (.ok flag)
  | error error => exact after false (.error error)

variable {o : RuntimeOptions}

/-- The effects of a program that asks nobody anything. -/
abbrev Calmly : Past → Op → Prop := fun _ op => op.calm = true

theorem persistMessage_calm (message : AgentMessage) {Q : Unit → Past → Prop} {E : Failure → Past → Prop}
    (returns : ∀ h', Q () h') (throws : ∀ error, E error (⟨.persistMessage message,.error error⟩ :: h)) :
    wp Calmly (persistMessage o message) Q E h := by
  unfold persistMessage
  rw [Program.wp_onlyIf,Program.wp_call]
  exact ⟨fun _ => ⟨rfl,fun _ => returns _,throws⟩,fun _ => returns h⟩

theorem persistToolLifecycle_calm (status : LifecycleStatus) (tool : ToolCall) (result : Option Value) (error : Option Failure)
    {Q : Unit → Past → Prop} {E : Failure → Past → Prop}
    (returns : ∀ h', h ⊆ h' → (status = .failed → pending h' = pending h) → Q () h')
    (throws : ∀ problem h', pending h' = some problem → E problem h') :
    wp Calmly (persistToolLifecycle o status tool result error) Q E h := by
  unfold persistToolLifecycle
  rw [Program.wp_onlyIf,Program.wp_call]
  refine ⟨fun _ => ⟨rfl,fun _ => returns _ (List.subset_cons_self _ _) ?_,fun problem => throws problem _ ?_⟩,fun _ => ?_⟩
  · rintro rfl
    rfl
  · cases status <;> rfl
  · exact returns h (List.Subset.refl h) fun _ => rfl

theorem dispatchCall_calm (v : Validated) (s : Loop) :
    wp Calmly (dispatchCall o v s) (fun answer h' => ⟨.dispatch v.call,.ok answer.1⟩ ∈ h' ∧ answer.2.messages = s.messages ∧
      answer.2.activeProvider = s.activeProvider ∧ answer.2.sideEffects = (s.sideEffects || v.effect = some .proposal))
      (fun error h' => pending h' = some error) h := by
  unfold dispatchCall
  rw [Program.wp_bind]
  refine persistToolLifecycle_calm _ _ _ _ (fun h₁ _ _ => ?_) fun _ _ thrown => thrown
  rw [Program.wp_bind,wp_emit]
  refine ⟨rfl,fun _ => ?_⟩
  rw [Program.wp_bind]
  refine persistToolLifecycle_calm _ _ _ _ (fun h₂ _ _ => ?_) fun _ _ thrown => thrown
  refine Program.wp_tryCatch_of _ _ (?_ : wp _ _ _ (fun error h' => pending h' = some error) _) ?_
  · rw [Program.wp_bind,Program.wp_call]
    refine ⟨rfl,fun result => ?_,fun _ => rfl⟩
    rw [Program.wp_bind]
    refine persistToolLifecycle_calm _ _ _ _ (fun h₃ recorded _ => ?_) fun _ _ thrown => thrown
    exact ⟨recorded (.head _),rfl,rfl,rfl⟩
  · intro error h' thrown
    rw [Program.wp_bind]
    refine wp_aborted rfl fun flag answer _ => ?_
    rw [Program.wp_ite]
    refine ⟨fun _ => thrown,fun _ => ?_⟩
    rw [Program.wp_bind]
    exact persistToolLifecycle_calm _ _ _ _ (fun h₃ _ same => (same rfl).trans thrown) fun _ _ thrown => thrown

theorem recordResult_calm (v : Validated) (result : Value) (s : Loop) :
    wp Calmly (recordResult o v result s) (fun s' _ => s' = { s with messages := s.messages ++ [reply o (v.call,result)] })
      Thrown h := by
  unfold recordResult
  rw [Program.wp_bind,wp_emit]
  refine ⟨rfl,fun _ => ?_⟩
  refine Program.wp_tryCatch_of _ _ (?_ : wp _ _ _ (fun _ _ => True) _) ?_
  · rw [Program.wp_bind]
    exact persistMessage_calm _ (fun _ => rfl) fun _ => trivial
  · intro error h' _
    rw [Program.wp_bind]
    exact persistToolLifecycle_calm _ _ _ _ (fun _ _ _ => .runtime _ _ _) fun _ _ thrown _ => thrown

theorem dispatchCalls_calm (vs : List Validated) (s : Loop) :
    wp Calmly (dispatchCalls o vs s) (fun s' h' => ∃ results : List (ToolCall × Value),
      results.map Prod.fst = vs.map Validated.call ∧ (∀ r ∈ results, ⟨.dispatch r.1,.ok r.2⟩ ∈ h') ∧
      s'.messages = s.messages ++ results.map (reply o) ∧ s'.activeProvider = s.activeProvider ∧
      s'.sideEffects = (s.sideEffects || vs.any fun v => v.effect = some .proposal)) Thrown h := by
  induction vs generalizing s h with
  | nil => exact ⟨[],rfl,by simp,by simp,rfl,by simp⟩
  | cons v rest ih =>
    unfold dispatchCalls
    rw [Program.wp_bind]
    apply Program.wp_mono _ (dispatchCall_calm v s)
    · rintro ⟨result,s₁⟩ h₁ ⟨given,messages,active,effects⟩
      rw [Program.wp_bind]
      apply Program.wp_mono _ (Program.wp_recorded _ (recordResult_calm v result s₁))
      · rintro s₂ h₂ ⟨rfl,recorded⟩
        apply Program.wp_mono _ (Program.wp_recorded _ (ih _))
        · rintro s₃ h₃ ⟨⟨results,calls,replies,messages',active',effects'⟩,recorded'⟩
          refine ⟨(v.call,result) :: results,congrArg (List.cons v.call) calls,?_,?_,active'.trans active,?_⟩
          · exact List.forall_mem_cons.mpr ⟨recorded' (recorded given),replies⟩
          · rw [List.map_cons,List.append_cons]
            exact messages'.trans (congrArg (· ++ [_] ++ _) messages)
          · rw [List.any_cons,← Bool.or_assoc]
            exact effects'.trans (congrArg (· || _) effects)
        · exact fun _ _ thrown => thrown.1
      · exact fun _ _ thrown => thrown.1
    · exact fun _ _ thrown _ => thrown

variable {messages : List AgentMessage} {s : Loop}

/-- A provider is asked as the protocol has it. -/
def Asks (o : RuntimeOptions) (messages : List AgentMessage) (h : Past) : Op → Prop
  | .complete index shown => MayAsk o messages h index shown
  | _ => True

theorem wp_calm {α : Type} {p : Run α} {Q : α → Past → Prop} {E : Failure → Past → Prop} (good : wp Calmly p Q E h) :
    wp (Asks o messages) p (fun value h' => Q value h' ∧ Quiet h h') (fun error h' => E error h' ∧ Quiet h h') h := by
  apply Program.wp_framed p good (.refl h)
  · intro h' op calm
    cases op with
    | complete index shown => cases calm
    | _ => trivial
  · exact fun h' op answer calm quiet => quiet.trans (.perform op calm answer)

theorem validateCalls_asks (repeated : Text → ℕ) (raws : List (Option RawCall)) (seen : List String) :
    wp (Asks o messages) (validateCalls o repeated raws seen) (fun vs h' =>
      raws.map toolCall = vs.map (fun v => some v.call) ∧ Kept h h' ∧
      (Hinted h' → Hinted h ∨ vs.any (fun v => v.effect = some .proposal) = true))
      (fun error h' => Thrown error h' ∧ Kept h h') h := by
  induction raws generalizing seen h with
  | nil => exact ⟨rfl,.refl h,.inl⟩
  | cons raw rest ih =>
    unfold validateCalls
    rw [Program.wp_bind,Program.wp_ofOption]
    refine ⟨fun tool found => ?_,fun _ => ⟨.runtime _ _ _,.refl h⟩⟩
    obtain ⟨formed,_⟩ := Option.filter_eq_some_iff.mp found
    rw [Program.wp_bind,Program.wp_reject]
    refine ⟨fun _ => ⟨.runtime _ _ _,.refl h⟩,fun _ => ?_⟩
    rw [Program.wp_bind,Program.wp_call]
    refine ⟨trivial,fun effect => ?_,fun error => ⟨fun _ => rfl,.classify _ _⟩⟩
    rw [Program.wp_bind,Program.wp_reject]
    refine ⟨fun _ => ⟨.runtime _ _ _,.classify _ _⟩,fun _ => ?_⟩
    rw [Program.wp_bind]
    apply Program.wp_mono _ (ih (tool.id :: seen))
    · rintro vs h' ⟨calls,kept,hinted⟩
      refine ⟨?_,(Kept.classify _ _).trans kept,fun known => ?_⟩
      · rw [List.map_cons,List.map_cons,formed,calls]
      · rw [List.any_cons,Bool.or_eq_true,decide_eq_true_eq]
        obtain ⟨name,inside⟩ | later := hinted known
        · obtain same | before := List.mem_cons.mp inside
          · cases same
            exact .inr (.inl rfl)
          · exact .inl ⟨name,before⟩
        · exact .inr (.inr later)
    · exact fun error h' good => ⟨good.1,(Kept.classify _ _).trans good.2⟩

theorem Paired.mono {shown : List AgentMessage} {answers : List Assistant} (paired : Paired o messages shown answers h)
    (recorded : h ⊆ h') : Paired o messages shown answers h' := by
  obtain ⟨turns,answered,same,split⟩ := paired
  exact ⟨turns,fun t inside => ⟨(answered t inside).calls,fun r given => recorded ((answered t inside).given r given)⟩,same,split⟩

/-- One more answer, and a result for each of its calls. -/
theorem Paired.turn {shown : List AgentMessage} {answers : List Assistant} (paired : Paired o messages shown answers h)
    {t : Turn} (answered : t.Answered h) : Paired o messages (shown ++ t.messages o) (t.message :: answers) h := by
  obtain ⟨turns,before,same,split⟩ := paired
  refine ⟨turns ++ [t],?_,?_,?_⟩
  · intro u inside
    obtain earlier | last := List.mem_append.mp inside
    · exact before u earlier
    · rw [List.mem_singleton.mp last]
      exact answered
  · rw [List.map_append,same,List.reverse_cons]
    rfl
  · rw [split,List.flatMap_append,List.append_assoc,List.flatMap_singleton]

/-- What is true before the provider of the index is asked. -/
structure Ready (o : RuntimeOptions) (messages : List AgentMessage) (s : Loop) (index : ℕ) (h : Past) : Prop where
  paired : Paired o messages s.messages (responses h) h
  forward : ∀ earlier ∈ asked h, earlier.1 ≤ index ∧ (Failed earlier.2 → earlier.1 < index)
  hinted : Hinted h → s.sideEffects = true
  loyal : s.sideEffects = true → (asked h).head?.map Prod.fst = some index
  running : Running h

/-- What is true once a provider has answered, while nothing was made of the answer. -/
structure Heard (o : RuntimeOptions) (messages : List AgentMessage) (s : Loop) (message : Assistant) (index : ℕ) (h : Past) :
    Prop where
  answers : ∃ earlier, responses h = message :: earlier ∧ Paired o messages s.messages earlier h
  forward : ∀ earlier ∈ asked h, earlier.1 ≤ index ∧ (Failed earlier.2 → earlier.1 < index)
  hinted : Hinted h → s.sideEffects = true
  latest : (asked h).head?.map Prod.fst = some index
  running : Running h

theorem Ready.mayAsk {index : ℕ} (ready : Ready o messages s index h) : MayAsk o messages h index s.messages :=
  ⟨ready.paired,ready.forward,fun proposed => ready.loyal (ready.hinted proposed.hinted)⟩

theorem Ready.quiet {index : ℕ} (ready : Ready o messages s index h) (quiet : Quiet h h') : Ready o messages s index h' := by
  refine ⟨?_,?_,fun known => ready.hinted (quiet.hinted known),?_,quiet.running ready.running⟩
  · rw [quiet.responses]
    exact ready.paired.mono quiet.recorded
  · rw [quiet.asked]
    exact ready.forward
  · rw [quiet.asked]
    exact ready.loyal

theorem hinted_complete {index : ℕ} {shown : List AgentMessage} {answer : Except Failure ModelResponse}
    (known : Hinted (⟨.complete index shown,answer⟩ :: h)) : Hinted h := by
  obtain ⟨name,inside⟩ := known
  obtain same | before := List.mem_cons.mp inside
  · cases same
  · exact ⟨name,before⟩

/-- The next provider may be asked when this one has failed and nothing was proposed yet. -/
theorem Ready.failed {index : ℕ} {answer : Except Failure ModelResponse} (ready : Ready o messages s index h)
    (idle : s.sideEffects = false) :
    Ready o messages s (index + 1) (⟨.complete index s.messages,answer⟩ :: h) := by
  refine ⟨ready.paired.mono (List.subset_cons_self _ _),?_,fun known => ready.hinted (hinted_complete known),?_,ready.running⟩
  · rintro earlier inside
    obtain rfl | before := List.mem_cons.mp inside
    · exact ⟨Nat.le_succ _,fun _ => Nat.lt_succ_self _⟩
    · have behind := (ready.forward earlier before).1
      exact ⟨Nat.le_succ_of_le behind,fun _ => Nat.lt_succ_of_le behind⟩
  · intro busy
    rw [idle] at busy
    cases busy

theorem Ready.heard {index : ℕ} {response : ModelResponse} {message : Assistant} {provider : String}
    {answer : Except Failure Unit} (ready : Ready o messages s index h) (valid : validateResponse response = .ok message) :
    Heard o messages s message index
      (⟨.emit (.modelResponded provider message),answer⟩ :: ⟨.complete index s.messages,.ok response⟩ :: h) := by
  refine ⟨⟨responses h,rfl,ready.paired.mono ?_⟩,?_,?_,rfl,?_⟩
  · exact List.Subset.trans (List.subset_cons_self _ _) (List.subset_cons_self _ _)
  · rintro earlier inside
    obtain rfl | before := List.mem_cons.mp inside
    · exact ⟨le_refl _,fun failed => absurd valid (failed message)⟩
    · exact ready.forward earlier before
  · rintro ⟨name,inside⟩
    obtain same | before := List.mem_cons.mp inside
    · cases same
    · exact ready.hinted (hinted_complete ⟨name,before⟩)
  · exact Running.emit (h := ⟨.complete index s.messages,.ok response⟩ :: h) ready.running rfl answer

theorem request_asks (iteration : ℕ) (providers : List String) (index : ℕ) (ready : Ready o messages s index h) :
    wp (Asks o messages) (request iteration s providers index) (fun answer h' => Heard o messages s answer.1 answer.2 h')
      (fun error h' => Thrown error h' ∧ Running h') h := by
  induction providers generalizing index h with
  | nil => exact ⟨.runtime _ _ _,ready.running⟩
  | cons provider rest ih =>
    unfold request
    rw [Program.wp_bind,wp_emit]
    refine ⟨trivial,fun shown => ?_⟩
    replace ready := ready.quiet (.perform (.emit (.modelRequested provider iteration)) rfl shown)
    generalize (⟨.emit (.modelRequested provider iteration),shown⟩ :: h : Past) = h₁ at ready ⊢
    rw [Program.wp_attempt,Program.wp_bind,Program.wp_call]
    have handled : ∀ answer error, Thrown error (⟨.complete index s.messages,answer⟩ :: h₁) → wp (Asks o messages) (do
        if ← aborted then throw error
        else
          let text ← Program.ofExcept error.text
          emit (.providerFailed provider text)
          if s.sideEffects ∨ rest = [] then throw (.runtime .modelError text)
          else request iteration s rest (index + 1)) (fun answer h' => Heard o messages s answer.1 answer.2 h')
        (fun error h' => Thrown error h' ∧ Running h') (⟨.complete index s.messages,answer⟩ :: h₁) := by
      intro answer error thrown
      rw [Program.wp_bind]
      refine wp_aborted trivial fun flag stopped _ => ?_
      rw [Program.wp_ite]
      refine ⟨fun _ => ⟨thrown,ready.running⟩,fun _ => ?_⟩
      rw [Program.wp_bind,Program.wp_ofExcept]
      refine ⟨fun text _ => ?_,fun problem failed => ⟨fun mute => absurd mute (text_not_mute failed),ready.running⟩⟩
      rw [Program.wp_bind,wp_emit]
      refine ⟨trivial,fun told => ?_⟩
      rw [Program.wp_ite]
      refine ⟨fun _ => ⟨.runtime _ _ _,?_⟩,fun further => ?_⟩
      · exact Running.emit (h := ⟨.aborted,stopped⟩ :: ⟨.complete index s.messages,answer⟩ :: h₁) ready.running rfl told
      · have idle : s.sideEffects = false := Bool.eq_false_iff.mpr fun busy => further (.inl busy)
        have after : Ready o messages s (index + 1) (⟨.complete index s.messages,answer⟩ :: h₁) := ready.failed idle
        exact ih (index + 1) ((after.quiet (.perform .aborted rfl stopped)).quiet (.perform (.emit (.providerFailed provider text)) rfl told))
    refine ⟨ready.mayAsk,fun response => ?_,fun error => handled _ error fun _ => rfl⟩
    rw [Program.wp_ofExcept]
    refine ⟨fun message valid => ?_,fun error failed =>
      handled _ error fun mute => absurd mute (validateResponse_not_mute failed)⟩
    rw [Program.wp_bind,wp_emit]
    exact ⟨trivial,fun _ => ready.heard valid⟩

theorem Heard.quiet {message : Assistant} {index : ℕ} (heard : Heard o messages s message index h) (quiet : Quiet h h') :
    Heard o messages s message index h' := by
  obtain ⟨earlier,same,paired⟩ := heard.answers
  refine ⟨⟨earlier,quiet.responses.trans same,paired.mono quiet.recorded⟩,?_,fun known => heard.hinted (quiet.hinted known),?_,
    quiet.running heard.running⟩
  · rw [quiet.asked]
    exact heard.forward
  · rw [quiet.asked]
    exact heard.latest

/-- The same provider may be asked again once every call of its answer has been carried out. -/
theorem Heard.answered {t : Turn} {index : ℕ} {s' : Loop} {proposing : Bool} (heard : Heard o messages s t.message index h)
    (kept : Kept h h') (known : Hinted h' → Hinted h ∨ proposing = true) (answered : t.Answered h')
    (shown : s'.messages = s.messages ++ t.messages o) (effects : s'.sideEffects = (s.sideEffects || proposing)) :
    Ready o messages s' index h' := by
  obtain ⟨earlier,same,paired⟩ := heard.answers
  refine ⟨?_,?_,fun hinted => ?_,fun _ => ?_,kept.running heard.running⟩
  · rw [kept.responses,same,shown]
    exact (paired.mono kept.recorded).turn answered
  · rw [kept.asked]
    exact heard.forward
  · rw [effects,Bool.or_eq_true]
    exact (known hinted).imp_left heard.hinted
  · rw [kept.asked]
    exact heard.latest

/-- Once the calls of an answer are known, carrying them out leaves nothing unanswered. -/
theorem dispatchCalls_asks {message : Assistant} {index : ℕ} {vs : List Validated} (heard : Heard o messages s message index h)
    (calls : message.toolCalls.map toolCall = vs.map fun v => some v.call) (kept : Kept h h')
    (known : Hinted h' → Hinted h ∨ vs.any (fun v => v.effect = some .proposal) = true) :
    wp (Asks o messages) (dispatchCalls o vs { s with activeProvider := index, messages := s.messages ++ [.assistant message] })
      (fun s' h'' => Ready o messages s' s'.activeProvider h'') (fun error h'' => Thrown error h'' ∧ Running h'') h' := by
  apply Program.wp_mono _ (wp_calm (dispatchCalls_calm vs _))
  · rintro s' h'' ⟨⟨results,same,given,shown,active,effects⟩,quiet⟩
    have matched : message.toolCalls.map toolCall = results.map fun r => some r.1 := by
      have somes := congrArg (List.map some) same
      rw [List.map_map,List.map_map] at somes
      exact calls.trans somes.symm
    rw [active]
    apply heard.answered (t := ⟨message,results⟩) (kept.trans quiet.toKept) (fun hinted => known (quiet.hinted hinted))
      ⟨matched,given⟩ ?_ effects
    rw [shown,List.append_assoc]
    rfl
  · exact fun error h'' good => ⟨good.1,good.2.running (kept.running heard.running)⟩

/-- A run that has just ended. -/
def Ending (h : Past) : Prop := ∃ last answer before, h = ⟨.emit last,answer⟩ :: before ∧ last.terminal = true ∧ Running before

theorem iterate_asks {left iteration : ℕ} (ready : Ready o messages s s.activeProvider h) :
    wp (Asks o messages) (iterate o left iteration s) (fun _ h' => Ending h') (fun error h' => Thrown error h' ∧ Running h') h := by
  induction left generalizing iteration s h with
  | zero => exact ⟨.runtime _ _ _,ready.running⟩
  | succ left ih =>
    unfold iterate
    rw [Program.wp_bind]
    refine wp_aborted trivial fun flag stopped _ => ?_
    rw [Program.wp_ite]
    refine ⟨fun _ => ⟨fun mute => absurd rfl (mute "aborted"),ready.running⟩,fun _ => ?_⟩
    rw [Program.wp_bind,wp_emit]
    refine ⟨trivial,fun started => ?_⟩
    rw [Program.wp_bind]
    have asking := (ready.quiet (.perform .aborted rfl stopped)).quiet (.perform (.emit (.iterationStarted iteration)) rfl started)
    apply Program.wp_mono _ (request_asks iteration _ _ asking)
    · rintro ⟨message,index⟩ h₁ heard
      have persisted (h : Past) : wp Calmly (persistMessage o (.assistant message)) (fun _ _ => True) Thrown h :=
        persistMessage_calm _ (fun _ => trivial) fun _ _ => rfl
      rw [Program.wp_ite]
      refine ⟨fun _ => ?_,fun _ => ?_⟩
      · rw [Program.wp_bind]
        apply Program.wp_mono _ (wp_calm (persisted h₁))
        · rintro _ h₂ ⟨_,quiet⟩
          rw [wp_emit]
          exact ⟨trivial,fun answer => ⟨_,answer,h₂,rfl,rfl,quiet.running heard.running⟩⟩
        · exact fun _ _ good => ⟨good.1,good.2.running heard.running⟩
      · rw [Program.wp_bind,Program.wp_reject]
        refine ⟨fun _ => ⟨.runtime _ _ _,heard.running⟩,fun _ => ?_⟩
        rw [Program.wp_bind,Program.wp_reject]
        refine ⟨fun _ => ⟨.runtime _ _ _,heard.running⟩,fun _ => ?_⟩
        rw [Program.wp_bind,Program.wp_reject]
        refine ⟨fun _ => ⟨.runtime _ _ _,heard.running⟩,fun _ => ?_⟩
        rw [Program.wp_bind]
        apply Program.wp_mono _ (validateCalls_asks s.repeated message.toolCalls [])
        · rintro vs h₂ ⟨calls,kept,known⟩
          rw [Program.wp_bind]
          apply Program.wp_mono _ (wp_calm (persisted h₂))
          · rintro _ h₃ ⟨_,quiet⟩
            rw [Program.wp_bind]
            apply Program.wp_mono _ (dispatchCalls_asks heard calls (kept.trans quiet.toKept) fun hinted => known (quiet.hinted hinted))
            · exact fun s' h₄ ready' => ih ready'
            · exact fun _ _ good => good
          · exact fun _ _ good => ⟨good.1,good.2.running (kept.running heard.running)⟩
        · exact fun _ _ good => ⟨good.1,good.2.running heard.running⟩
    · exact fun _ _ good => good

theorem run_asks : wp (Asks o messages) (run o messages) (fun _ h' => Ending h') (fun _ h' => Running h' ∧ Unspoken h') [] := by
  unfold run
  rw [Program.wp_bind,wp_emit]
  refine ⟨trivial,fun answer => ?_⟩
  have ready : Ready o messages ⟨messages,0,false,0,fun _ => 0⟩ 0 [⟨.emit .runStarted,answer⟩] := by
    refine ⟨⟨[],by simp,rfl,by simp⟩,by simp [asked],?_,?_,[],rfl,by simp⟩
    · rintro ⟨name,inside⟩
      cases List.mem_singleton.mp inside
    · exact fun busy => nomatch busy
  apply Program.wp_tryCatch_of _ _ (iterate_asks ready)
  rintro error h ⟨thrown,running⟩
  rw [Program.wp_bind]
  refine wp_aborted trivial fun flag stopped means => ?_
  rw [Program.wp_ite]
  refine ⟨fun _ => ?_,fun going => ?_⟩
  · rw [Program.wp_bind]
    refine wp_timedOut trivial fun late answer => ?_
    rw [Program.wp_ite]
    exact ⟨fun _ => ⟨trivial,fun told => ⟨_,told,_,rfl,rfl,running⟩⟩,fun _ => ⟨trivial,fun told => ⟨_,told,_,rfl,rfl,running⟩⟩⟩
  · rw [Program.wp_bind,Program.wp_ofExcept]
    refine ⟨fun text _ => ⟨trivial,fun told => ⟨_,told,_,rfl,rfl,running⟩⟩,fun problem failed => ⟨running,?_,error,?_⟩⟩
    · exact fun yes => going (means yes)
    · have mute : error.Mute := fun text spoken => by
        rw [failed] at spoken
        cases spoken
      exact ⟨thrown mute,mute⟩

theorem Ending.ended (ending : Ending h) : Ended h := by
  obtain ⟨last,answer,before,rfl,terminal,others,started,inner⟩ := ending
  exact ⟨last,others,congrArg (List.cons last) started,terminal,inner⟩

theorem Ending.spoken (ending : Ending h) : ¬Unspoken h := by
  obtain ⟨last,answer,before,rfl,_⟩ := ending
  exact id

theorem Running.not_ended (running : Running h) : ¬Ended h := by
  rintro ⟨last,others,ended,terminal,_⟩
  obtain ⟨inner,started,before⟩ := running
  rw [started] at ended
  cases inner with
  | nil =>
    obtain ⟨rfl,_⟩ := List.cons.inj ended
    cases terminal
  | cons event inner =>
    obtain ⟨rfl,_⟩ := List.cons.inj ended
    rw [before event (.head _)] at terminal
    cases terminal

/-- What is pending was thrown. -/
theorem pending_thrown {error : Failure} (left : pending h = some error) : ∃ op, ⟨op,.error error⟩ ∈ h := by
  fun_induction pending h with
  | case1 answer h ih =>
    obtain ⟨op,inside⟩ := ih left
    exact ⟨op,.tail _ inside⟩
  | case2 tool result problem answer h ih =>
    obtain ⟨op,inside⟩ := ih left
    exact ⟨op,.tail _ inside⟩
  | case4 => cases left
  | case9 => cases left
  | _ =>
    cases left
    exact ⟨_,.head _⟩

/-- Where all that was thrown has a text, so has what the run is left with. -/
theorem spoken_of_texts (texts : ∀ op error, ⟨op,.error error⟩ ∈ h → ¬error.Mute) : ¬Unspoken h := by
  unfold Unspoken
  split
  · rintro ⟨_,error,left,mute⟩
    obtain ⟨op,inside⟩ := pending_thrown left
    exact texts op error (.tail _ inside) mute
  · exact id

end Rules

/-- A run that is consumed to its end keeps the protocol, unless it is left with something thrown
at it that has no text. -/
theorem run_wellFormed_iff (o : RuntimeOptions) (messages : List AgentMessage) {h : Past} {q : Run Unit}
    (ran : Program.Ran (run o messages) h q) (finished : Finished q) : WellFormed o messages h ↔ ¬Unspoken h := by
  have asks : ∀ after index shown answer before, h = after ++ ⟨.complete index shown,answer⟩ :: before →
      MayAsk o messages before index shown := by
    intro after index shown answer before split
    rw [split] at ran
    exact ran.allowed run_asks
  have left := ran.wp run_asks
  obtain rfl | ⟨error,rfl⟩ := finished
  · have ending : Ending h := left
    exact ⟨fun _ => ending.spoken,fun _ => ⟨ending.ended,asks⟩⟩
  · obtain ⟨running,unspoken⟩ := left
    exact ⟨fun formed => absurd formed.ended running.not_ended,fun spoken => absurd unspoken spoken⟩

namespace Sample

private theorem length_total (a b : String) : (a.length : ℤ) - b.length ≤ 0 ∨ (b.length : ℤ) - a.length ≤ 0 := by omega

private theorem length_trans (a b c : String) (first : (a.length : ℤ) - b.length ≤ 0) (second : (b.length : ℤ) - c.length ≤ 0) :
    (a.length : ℤ) - c.length ≤ 0 := by omega

private def codes : Locale where
  localeCompare a b := (a.length : ℤ) - b.length
  numeral _ := []
  total := length_total
  trans := length_trans

private def hooked : RuntimeOptions := ⟨["first","second"],true,true,false,2,2,2,codes⟩

private def asksFor (calls : List (Option RawCall)) : ModelResponse := some ⟨"assistant",some "",.array calls⟩

private def quote : RawCall := ⟨some "a",some "quote",.null⟩

/-- The first provider fails, the second calls a tool that proposes something and is asked again. -/
theorem run_wellFormed_proposing : ∃ h, (asked h).map Prod.fst = [1,1,0] ∧ Proposed h ∧ WellFormed hooked [] h := by
  have opened := ((Program.Ran.start (run hooked [])).perform (.ok ())).perform (.ok false)
  have first := ((opened.perform (.ok ())).perform (.ok ())).perform (.error (.other (some "down")))
  have second := ((first.perform (.ok false)).perform (.ok ())).perform (.ok ())
  have calls := (second.perform (.ok (asksFor [some quote]))).perform (.ok ())
  have proposed := (calls.perform (.ok (some .proposal))).perform (.ok ())
  have dispatched := (proposed.perform (.ok ())).perform (.ok .null)
  have recorded := (dispatched.perform (.ok ())).perform (.ok ())
  have again := ((recorded.perform (.ok false)).perform (.ok ())).perform (.ok ())
  have last := ((again.perform (.ok (asksFor []))).perform (.ok ())).perform (.ok ())
  have completed := last.perform (.ok ())
  have formed := (run_wellFormed_iff hooked [] completed (.inl rfl)).mpr id
  refine ⟨_,rfl,?_,formed⟩
  exact ⟨⟨"a","quote",.null⟩,.null,_ :: _ :: _ :: _ :: _ :: _ :: _ :: _ :: _ :: [],_,rfl,.tail _ (.tail _ (.head _))⟩

/-- A hook throws an object that has no text, and no event tells of the end. -/
theorem run_unfinished : ¬∀ (o : RuntimeOptions) (messages : List AgentMessage) (h : Past) (q : Run Unit),
    Program.Ran (run o messages) h q → Finished q → WellFormed o messages h := by
  intro all
  have first := ((((Program.Ran.start (run hooked [])).perform (.ok ())).perform (.ok false)).perform (.ok ())).perform (.ok ())
  have answered := (first.perform (.ok (asksFor []))).perform (.ok ())
  have thrown := (answered.perform (.error (.other none))).perform (.ok false)
  have formed := all hooked [] _ _ thrown (.inr ⟨_,rfl⟩)
  obtain ⟨last,others,ended,terminal,_⟩ := formed.ended
  obtain ⟨rfl,_⟩ := List.cons.inj ended
  cases terminal

end Sample

end RatifyOs.Agent
