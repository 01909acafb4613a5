import RatifyOs.Agent.Runtime

/-! The budgets of a run, over everything it has done: what is dispatched, how often, and how
many answers of the model are accepted. -/
namespace RatifyOs.Agent
open Data Async
open Async.Program (attempt call ofOption onlyIf reject wp)

abbrev Past := History Op Ans Failure

/-- The calls that were dispatched, newest first. -/
def dispatches : Past → List ToolCall
  | [] => []
  | ⟨.dispatch tool,_⟩ :: h => tool :: dispatches h
  | _ :: h => dispatches h

/-- The number of the answers that were accepted. -/
def accepted : Past → ℕ
  | [] => 0
  | ⟨.emit (.modelResponded _ _),_⟩ :: h => accepted h + 1
  | _ :: h => accepted h

/-- The answer accepted last, and what had happened before it. -/
def latest : Past → Option (Assistant × Past)
  | [] => none
  | ⟨.emit (.modelResponded _ message),_⟩ :: h => some (message,h)
  | _ :: h => latest h

/-- How a tool of the name was classified when it was classified last. -/
def classified (name : String) : Past → Option ToolEffect
  | [] => none
  | ⟨.classify name',.ok effect⟩ :: h => if name' = name then effect else classified name h
  | ⟨.classify name',.error _⟩ :: h => if name' = name then none else classified name h
  | _ :: h => classified name h

/-- The same tool with the same arguments, but for the order of keys. -/
def SamePair (c d : ToolCall) : Prop := c.name = d.name ∧ Alike c.arguments d.arguments

open Classical in
noncomputable def occurrences (c : ToolCall) (calls : List ToolCall) : ℕ := calls.countP fun d => SamePair c d

/-- The well-formed calls of an answer. -/
def requested (message : Assistant) : List ToolCall := message.toolCalls.filterMap toolCall

section Budget
variable (o : RuntimeOptions)

/-- The pair stands more than once in the answer, or its keys are not told apart. -/
def Evades (message : Assistant) (c : ToolCall) : Prop :=
  1 < occurrences c (requested message) ∨ ¬Apart o.locale c.arguments

/-- A call that starts now evades no count, or its pair stays within what is left all the same. -/
def Fits (h : Past) (c : ToolCall) : Prop :=
  ∀ message before, latest h = some (message,before) → Evades o message c →
    occurrences c (dispatches before) + occurrences c (requested message) ≤ o.maxRepeatedToolCalls

/-- Every call fitted when it started. -/
def Within : Past → Prop
  | [] => True
  | ⟨.emit (.toolStarted c),_⟩ :: h => Fits o h c ∧ Within h
  | _ :: h => Within h

/-- What is true whenever a tool is dispatched. -/
structure MayDispatch (h : Past) (c : ToolCall) : Prop where
  total : (dispatches h).length < o.maxToolCalls
  effect : classified c.name h = some .read ∨ classified c.name h = some .proposal
  permitted : deniedTool c.name = false
  repeats : Within o h → occurrences c (dispatches h) < o.maxRepeatedToolCalls

def Allow (h : Past) : Op → Prop
  | .dispatch c => MayDispatch o h c
  | .emit (.modelResponded _ _) => accepted h < o.maxIterations
  | _ => True

end Budget

theorem SamePair.refl (c : ToolCall) : SamePair c c := ⟨rfl,rfl⟩

theorem occurrences_congr {c d : ToolCall} (same : SamePair c d) (calls : List ToolCall) :
    occurrences c calls = occurrences d calls := by
  refine List.countP_congr fun e _ => ?_
  simp only [decide_eq_true_eq]
  exact ⟨fun ⟨name,alike⟩ => ⟨same.1.symm.trans name,same.2.symm.trans alike⟩,
    fun ⟨name,alike⟩ => ⟨same.1.trans name,same.2.trans alike⟩⟩

theorem occurrences_append (c : ToolCall) (xs ys : List ToolCall) :
    occurrences c (xs ++ ys) = occurrences c xs + occurrences c ys := List.countP_append

theorem occurrences_reverse (c : ToolCall) (xs : List ToolCall) : occurrences c xs.reverse = occurrences c xs :=
  List.countP_reverse

theorem occurrences_cons {c d : ToolCall} (same : SamePair c d) (xs : List ToolCall) :
    occurrences c (d :: xs) = occurrences c xs + 1 :=
  List.countP_cons_of_pos (by simpa using same)

theorem occurrences_cons_of_not {c d : ToolCall} (other : ¬SamePair c d) (xs : List ToolCall) :
    occurrences c (d :: xs) = occurrences c xs :=
  List.countP_cons_of_neg (by simpa using other)

/-- Nothing of what the budgets are about has happened. -/
structure Calm (h h' : Past) : Prop where
  dispatches : dispatches h' = dispatches h
  accepted : accepted h' = accepted h
  latest : latest h' = latest h
  classified : ∀ name, classified name h' = classified name h

theorem Calm.refl (h : Past) : Calm h h := ⟨rfl,rfl,rfl,fun _ => rfl⟩

theorem Calm.trans {h h' h'' : Past} (first : Calm h h') (second : Calm h' h'') : Calm h h'' :=
  ⟨second.dispatches.trans first.dispatches,second.accepted.trans first.accepted,second.latest.trans first.latest,
    fun name => (second.classified name).trans (first.classified name)⟩

section Rules
variable {o : RuntimeOptions} {h : Past}

theorem wp_emit {allow : Past → Op → Prop} (event : AgentEvent) {Q : Unit → Past → Prop} {E : Failure → Past → Prop} :
    wp allow (emit event) Q E h ↔ allow h (.emit event) ∧ ∀ answer, Q () (⟨.emit event,answer⟩ :: h) := Iff.rfl

theorem aborted_wp {Q : Bool → Past → Prop} {E : Failure → Past → Prop} (after : ∀ flag h', Calm h h' → Q flag h') :
    wp (Allow o) aborted Q E h := by
  refine ⟨trivial,fun answer => ?_⟩
  cases answer with
  | ok flag => exact after flag _ ⟨rfl,rfl,rfl,fun _ => rfl⟩
  | error error => exact after false _ ⟨rfl,rfl,rfl,fun _ => rfl⟩

theorem timedOut_wp {Q : Bool → Past → Prop} {E : Failure → Past → Prop} (after : ∀ flag h', Calm h h' → Q flag h') :
    wp (Allow o) timedOut Q E h := by
  refine ⟨trivial,fun answer => ?_⟩
  cases answer with
  | ok flag => exact after flag _ ⟨rfl,rfl,rfl,fun _ => rfl⟩
  | error error => exact after false _ ⟨rfl,rfl,rfl,fun _ => rfl⟩

theorem persistMessage_wp (message : AgentMessage) {Q : Unit → Past → Prop} {E : Failure → Past → Prop}
    (returns : ∀ h', Calm h h' → Q () h') (throws : ∀ error h', Calm h h' → E error h') :
    wp (Allow o) (persistMessage o message) Q E h := by
  unfold persistMessage
  rw [Program.wp_onlyIf,Program.wp_call]
  exact ⟨fun _ => ⟨trivial,fun _ => returns _ ⟨rfl,rfl,rfl,fun _ => rfl⟩,fun error => throws error _ ⟨rfl,rfl,rfl,fun _ => rfl⟩⟩,
    fun _ => returns h (.refl h)⟩

theorem persistToolLifecycle_wp (status : LifecycleStatus) (tool : ToolCall) (result : Option Value) (error : Option Failure)
    {Q : Unit → Past → Prop} {E : Failure → Past → Prop} (returns : ∀ h', Calm h h' → (Within o h' → Within o h) → Q () h')
    (throws : ∀ error h', Calm h h' → E error h') : wp (Allow o) (persistToolLifecycle o status tool result error) Q E h := by
  unfold persistToolLifecycle
  rw [Program.wp_onlyIf,Program.wp_call]
  exact ⟨fun _ => ⟨trivial,fun _ => returns _ ⟨rfl,rfl,rfl,fun _ => rfl⟩ fun within => within,
      fun error => throws error _ ⟨rfl,rfl,rfl,fun _ => rfl⟩⟩,
    fun _ => returns h (.refl h) fun within => within⟩

theorem request_wp (iteration : ℕ) (s : Loop) (providers : List String) (index : ℕ) (room : accepted h < o.maxIterations) :
    wp (Allow o) (request iteration s providers index) (fun answer h' => dispatches h' = dispatches h ∧
      accepted h' = accepted h + 1 ∧ ∃ before, latest h' = some (answer.1,before) ∧ dispatches before = dispatches h)
      (fun _ _ => True) h := by
  induction providers generalizing index h with
  | nil => trivial
  | cons provider rest ih =>
    unfold request
    rw [Program.wp_bind,wp_emit]
    refine ⟨trivial,fun _ => ?_⟩
    rw [Program.wp_attempt,Program.wp_bind,Program.wp_call]
    have handled : ∀ error h', Calm h h' → wp (Allow o) (do
        if ← aborted then throw error
        else
          let text ← Program.ofExcept error.text
          emit (.providerFailed provider text)
          if s.sideEffects ∨ rest = [] then throw (.runtime .modelError text)
          else request iteration s rest (index + 1))
        (fun answer h' => dispatches h' = dispatches h ∧
          accepted h' = accepted h + 1 ∧ ∃ before, latest h' = some (answer.1,before) ∧ dispatches before = dispatches h)
        (fun _ _ => True) h' := by
      intro error h' calm
      rw [Program.wp_bind]
      refine aborted_wp fun flag h'' calm' => ?_
      rw [Program.wp_ite]
      refine ⟨fun _ => trivial,fun _ => ?_⟩
      rw [Program.wp_bind,Program.wp_ofExcept]
      refine ⟨fun text _ => ?_,fun _ _ => trivial⟩
      rw [Program.wp_bind,wp_emit]
      refine ⟨trivial,fun answer => ?_⟩
      rw [Program.wp_ite]
      refine ⟨fun _ => trivial,fun _ => ?_⟩
      have both := calm.trans calm'
      have again := ih (h := ⟨.emit (.providerFailed provider text),answer⟩ :: h'') (index + 1)
        (by rw [← both.accepted] at room; exact room)
      refine Program.wp_mono _ again (fun answer after good => ?_) fun _ _ _ => trivial
      rw [← both.dispatches,← both.accepted]
      exact good
    refine ⟨trivial,fun response => ?_,fun error => handled error _ ⟨rfl,rfl,rfl,fun _ => rfl⟩⟩
    rw [Program.wp_ofExcept]
    refine ⟨fun message _ => ?_,fun error _ => handled error _ ⟨rfl,rfl,rfl,fun _ => rfl⟩⟩
    rw [Program.wp_bind,wp_emit]
    exact ⟨room,fun answer => ⟨rfl,rfl,_,rfl,rfl⟩⟩

/-- What the first loop has found out about a call it lets through. -/
structure Checked (o : RuntimeOptions) (repeated : Text → ℕ) (h : Past) (v : Validated) : Prop where
  signature : v.signature = signature o v.call
  room : repeated v.signature < o.maxRepeatedToolCalls
  permitted : deniedTool v.call.name = false
  effect : classified v.call.name h = some .read ∨ classified v.call.name h = some .proposal

theorem validateCalls_wp (repeated : Text → ℕ) (raws : List (Option RawCall)) (seen : List String) :
    wp (Allow o) (validateCalls o repeated raws seen) (fun vs h' =>
      dispatches h' = dispatches h ∧ accepted h' = accepted h ∧ latest h' = latest h ∧
      vs.map Validated.call = raws.filterMap toolCall ∧ vs.length = raws.length ∧ (∀ v ∈ vs, Checked o repeated h' v) ∧
      ∀ name, (∀ v ∈ vs, v.call.name ≠ name) → classified name h' = classified name h) (fun _ _ => True) h := by
  induction raws generalizing seen h with
  | nil => exact ⟨rfl,rfl,rfl,rfl,rfl,by simp,fun _ _ => rfl⟩
  | cons raw rest ih =>
    unfold validateCalls
    rw [Program.wp_bind,Program.wp_ofOption]
    refine ⟨fun tool found => ?_,fun _ => trivial⟩
    obtain ⟨formed,_⟩ := Option.filter_eq_some_iff.mp found
    rw [Program.wp_bind,Program.wp_reject]
    refine ⟨fun _ => trivial,fun room => ?_⟩
    rw [Program.wp_bind,Program.wp_call]
    refine ⟨trivial,fun effect => ?_,fun _ => trivial⟩
    rw [Program.wp_bind,Program.wp_reject]
    refine ⟨fun _ => trivial,fun safe => ?_⟩
    rw [not_or,not_and_or,not_not,not_not] at safe
    rw [Program.wp_bind]
    refine Program.wp_mono _ (ih (tool.id :: seen)) (fun vs after good => ?_) fun _ _ _ => trivial
    obtain ⟨same,count,last,calls,length,checked,others⟩ := good
    have here : classified tool.name after = some .read ∨ classified tool.name after = some .proposal := by
      by_cases again : ∃ v ∈ vs, v.call.name = tool.name
      · obtain ⟨v,inside,named⟩ := again
        rw [← named]
        exact (checked v inside).effect
      · rw [others tool.name fun v inside named => again ⟨v,inside,named⟩]
        simpa [classified] using safe.1
    refine ⟨same,count,last,?_,congrArg Nat.succ length,?_,fun name unlike => ?_⟩
    · simp [formed,calls]
    · intro v inside
      obtain rfl | among := List.mem_cons.mp inside
      · exact ⟨rfl,Nat.lt_of_succ_le (not_lt.mp room),by simpa using safe.2,here⟩
      · exact checked v among
    · rw [others name fun v inside => unlike v (.tail _ inside)]
      exact if_neg (unlike ⟨tool,_,effect⟩ (.head _))

theorem dispatchCall_wp {v : Validated} {s : Loop} (may : ∀ h', Calm h h' → (Within o h' → Fits o h v.call) → MayDispatch o h' v.call) :
    wp (Allow o) (dispatchCall o v s) (fun answer h' =>
      dispatches h' = v.call :: dispatches h ∧ accepted h' = accepted h ∧ latest h' = latest h ∧
      (∀ name, classified name h' = classified name h) ∧ answer.2.toolCount = s.toolCount + 1 ∧
      answer.2.repeated = Function.update s.repeated v.signature (s.repeated v.signature + 1)) (fun _ _ => True) h := by
  unfold dispatchCall
  rw [Program.wp_bind]
  refine persistToolLifecycle_wp _ _ _ _ (fun h₁ planned _ => ?_) fun _ _ _ => trivial
  rw [Program.wp_bind,wp_emit]
  refine ⟨trivial,fun answer => ?_⟩
  rw [Program.wp_bind]
  refine persistToolLifecycle_wp _ _ _ _ (fun h₂ started within => ?_) fun _ _ _ => trivial
  have calm : Calm h h₂ := planned.trans ⟨started.dispatches,started.accepted,started.latest,started.classified⟩
  have fits : Within o h₂ → Fits o h v.call := by
    intro all message before found evades
    exact (within all).1 message before (planned.latest.trans found) evades
  have failed : ∀ error h', wp (Allow o) (do
      if ← aborted then throw error
      else
        persistToolLifecycle o .failed v.call none (some error)
        throw error)
      (fun (answer : Value × Loop) h' =>
        dispatches h' = v.call :: dispatches h ∧ accepted h' = accepted h ∧ latest h' = latest h ∧
        (∀ name, classified name h' = classified name h) ∧ answer.2.toolCount = s.toolCount + 1 ∧
        answer.2.repeated = Function.update s.repeated v.signature (s.repeated v.signature + 1)) (fun _ _ => True) h' := by
    intro error h'
    rw [Program.wp_bind]
    refine aborted_wp fun flag h'' _ => ?_
    rw [Program.wp_ite]
    refine ⟨fun _ => trivial,fun _ => ?_⟩
    rw [Program.wp_bind]
    exact persistToolLifecycle_wp _ _ _ _ (fun _ _ _ => trivial) fun _ _ _ => trivial
  rw [Program.wp_tryCatch,Program.wp_bind,Program.wp_call]
  refine ⟨may h₂ calm fits,fun result => ?_,fun error => failed error _⟩
  rw [Program.wp_bind]
  refine persistToolLifecycle_wp _ _ _ _ (fun h₃ kept _ => ?_) fun error h₃ _ => failed error h₃
  refine ⟨?_,kept.accepted.trans calm.accepted,kept.latest.trans calm.latest,
    fun name => (kept.classified name).trans (calm.classified name),rfl,rfl⟩
  rw [kept.dispatches,← calm.dispatches]
  rfl

theorem recordResult_wp {v : Validated} {result : Value} {s : Loop} :
    wp (Allow o) (recordResult o v result s) (fun s' h' => Calm h h' ∧ s'.toolCount = s.toolCount ∧ s'.repeated = s.repeated)
      (fun _ _ => True) h := by
  unfold recordResult
  rw [Program.wp_bind,wp_emit]
  refine ⟨trivial,fun answer => ?_⟩
  rw [Program.wp_tryCatch,Program.wp_bind]
  refine persistMessage_wp _ (fun h' kept => ?_) fun error h' _ => ?_
  · exact ⟨⟨kept.dispatches,kept.accepted,kept.latest,kept.classified⟩,rfl,rfl⟩
  · rw [Program.wp_bind]
    exact persistToolLifecycle_wp _ _ _ _ (fun _ _ _ => trivial) fun _ _ _ => trivial

/-- The two counters of the loop count what was dispatched. -/
structure Tally (o : RuntimeOptions) (s : Loop) (h : Past) : Prop where
  count : s.toolCount = (dispatches h).length
  repeated : ∀ key, s.repeated key = (dispatches h).countP fun c => signature o c = key

theorem occurrences_le {c : ToolCall} (apart : Apart o.locale c.arguments) (calls : List ToolCall) :
    occurrences c calls ≤ calls.countP fun d => signature o d = signature o c := by
  refine List.countP_mono_left fun d _ same => ?_
  simp only [decide_eq_true_eq] at same ⊢
  unfold signature
  rw [same.1,stableStringify_alike o.locale same.2.symm apart]

/-- A call of the answer under way may be dispatched, when the calls before it have been. -/
theorem mayDispatch_of {message : Assistant} {before h' : Past} {done rest : List ToolCall} {v : Validated} {repeated : Text → ℕ}
    (response : requested message = done ++ v.call :: rest) (here : latest h = some (message,before))
    (past : dispatches h = done.reverse ++ dispatches before) (room : (dispatches h).length < o.maxToolCalls)
    (counted : ∀ key, repeated key = (dispatches before).countP fun c => signature o c = key)
    (checked : Checked o repeated h v) (calm : Calm h h') (fits : Within o h' → Fits o h v.call) : MayDispatch o h' v.call := by
  refine ⟨calm.dispatches ▸ room,by rw [calm.classified]; exact checked.effect,checked.permitted,fun within => ?_⟩
  have total : occurrences v.call (requested message) = occurrences v.call done + (occurrences v.call rest + 1) := by
    rw [response,occurrences_append,occurrences_cons (.refl _)]
  rw [calm.dispatches,past,occurrences_append,occurrences_reverse]
  by_cases evades : Evades o message v.call
  · have fitted := fits within message before here evades
    omega
  · obtain ⟨single,apart⟩ := not_or.mp evades
    have bound := occurrences_le (o := o) (not_not.mp apart) (dispatches before)
    have left := checked.room
    rw [checked.signature,counted] at left
    omega

theorem dispatchCalls_wp {message : Assistant} {before : Past} {repeated : Text → ℕ}
    (counted : ∀ key, repeated key = (dispatches before).countP fun c => signature o c = key) {todo : List Validated}
    {done : List ToolCall} {s : Loop} (response : requested message = done ++ todo.map Validated.call)
    (here : latest h = some (message,before)) (past : dispatches h = done.reverse ++ dispatches before)
    (tally : Tally o s h) (room : s.toolCount + todo.length ≤ o.maxToolCalls) (checked : ∀ v ∈ todo, Checked o repeated h v) :
    wp (Allow o) (dispatchCalls o todo s) (fun s' h' => Tally o s' h' ∧ accepted h' = accepted h) (fun _ _ => True) h := by
  induction todo generalizing done s h with
  | nil => exact ⟨tally,rfl⟩
  | cons v rest ih =>
    have valid := checked v (.head _)
    rw [List.map_cons] at response
    rw [List.length_cons] at room
    unfold dispatchCalls
    rw [Program.wp_bind]
    refine Program.wp_mono _ (dispatchCall_wp fun h' calm fits =>
      mayDispatch_of response here past (by rw [← tally.count]; omega) counted valid calm fits) ?_ fun _ _ _ => trivial
    intro answer h₁ ⟨more,same,last,classes,count,marks⟩
    rw [Program.wp_bind]
    refine Program.wp_mono _ recordResult_wp ?_ fun _ _ _ => trivial
    intro s₂ h₂ ⟨calm,count',marks'⟩
    have after : dispatches h₂ = v.call :: dispatches h := calm.dispatches.trans more
    have tally' : Tally o s₂ h₂ := by
      refine ⟨?_,fun key => ?_⟩
      · rw [count',count,after,tally.count]
        rfl
      · rw [marks',marks,after,List.countP_cons,← tally.repeated key,valid.signature]
        by_cases hit : signature o v.call = key
        · subst hit
          simp
        · simp [hit,Function.update_of_ne (Ne.symm hit)]
    have response' : requested message = (done ++ [v.call]) ++ rest.map Validated.call := by simpa using response
    have rest' := ih response' (calm.latest.trans (last.trans here))
      (by rw [after,past]; simp) tally' (by rw [count',count]; omega) fun u inside => by
        have earlier := checked u (.tail _ inside)
        exact ⟨earlier.signature,earlier.room,earlier.permitted,by
          rw [calm.classified,classes]
          exact earlier.effect⟩
    refine Program.wp_mono _ rest' (fun s' h' good => ⟨good.1,?_⟩) fun _ _ _ => trivial
    rw [good.2,calm.accepted,same]

theorem iterate_wp {left iteration : ℕ} {s : Loop} (tally : Tally o s h) (turn : accepted h + left ≤ o.maxIterations) :
    wp (Allow o) (iterate o left iteration s) (fun _ _ => True) (fun _ _ => True) h := by
  induction left generalizing iteration s h with
  | zero => trivial
  | succ left ih =>
    unfold iterate
    rw [Program.wp_bind]
    refine aborted_wp fun flag h₁ calm => ?_
    rw [Program.wp_ite]
    refine ⟨fun _ => trivial,fun _ => ?_⟩
    rw [Program.wp_bind,wp_emit]
    refine ⟨trivial,fun answer => ?_⟩
    rw [Program.wp_bind]
    have room : accepted (⟨.emit (.iterationStarted iteration),answer⟩ :: h₁) < o.maxIterations := by
      change accepted h₁ < _
      rw [calm.accepted]
      omega
    refine Program.wp_mono _ (request_wp iteration s _ _ room) ?_ fun _ _ _ => trivial
    intro response h₂ ⟨same,count,before,here,earlier⟩
    replace same : dispatches h₂ = dispatches h := same.trans calm.dispatches
    replace count : accepted h₂ = accepted h + 1 := count.trans (congrArg (· + 1) calm.accepted)
    replace earlier : dispatches before = dispatches h := earlier.trans calm.dispatches
    rw [Program.wp_ite]
    refine ⟨fun _ => ?_,fun _ => ?_⟩
    · rw [Program.wp_bind]
      refine persistMessage_wp _ (fun h' _ => ?_) fun _ _ _ => trivial
      rw [wp_emit]
      exact ⟨trivial,fun _ => trivial⟩
    · rw [Program.wp_bind,Program.wp_reject]
      refine ⟨fun _ => trivial,fun _ => ?_⟩
      rw [Program.wp_bind,Program.wp_reject]
      refine ⟨fun _ => trivial,fun fits => ?_⟩
      rw [Program.wp_bind,Program.wp_reject]
      refine ⟨fun _ => trivial,fun _ => ?_⟩
      rw [Program.wp_bind]
      refine Program.wp_mono _ (validateCalls_wp s.repeated response.1.toolCalls []) ?_ fun _ _ _ => trivial
      intro vs h₃ ⟨same',count',last,calls,length,checked,_⟩
      rw [Program.wp_bind]
      refine persistMessage_wp _ (fun h₄ kept => ?_) fun _ _ _ => trivial
      rw [Program.wp_bind]
      have still : dispatches h₄ = dispatches h := kept.dispatches.trans (same'.trans same)
      have counted : ∀ key, s.repeated key = (dispatches before).countP fun c => signature o c = key := by
        intro key
        rw [earlier]
        exact tally.repeated key
      have called : requested response.1 = [] ++ vs.map Validated.call := by simpa [requested] using calls.symm
      refine Program.wp_mono _ (dispatchCalls_wp counted called
        (kept.latest.trans (last.trans here)) (by rw [still,earlier]; rfl)
        ⟨by rw [still]; exact tally.count,fun key => by rw [still]; exact tally.repeated key⟩
        (by rw [length]; simpa using fits) fun v inside => ?_) ?_ fun _ _ _ => trivial
      · have ok := checked v inside
        exact ⟨ok.signature,ok.room,ok.permitted,by rw [kept.classified]; exact ok.effect⟩
      · intro s' h₅ ⟨tally',count''⟩
        refine ih tally' ?_
        rw [count'',kept.accepted,count',count]
        omega

theorem run_wp (messages : List AgentMessage) : wp (Allow o) (run o messages) (fun _ _ => True) (fun _ _ => True) [] := by
  unfold run
  rw [Program.wp_bind,wp_emit]
  refine ⟨trivial,fun answer => ?_⟩
  refine Program.wp_tryCatch_of _ _ (iterate_wp ⟨rfl,fun _ => rfl⟩ (by simp [accepted])) fun error h' _ => ?_
  rw [Program.wp_bind]
  refine aborted_wp fun flag h'' _ => ?_
  rw [Program.wp_ite]
  refine ⟨fun _ => ?_,fun _ => ?_⟩
  · rw [Program.wp_bind]
    refine timedOut_wp fun late _ _ => ?_
    rw [Program.wp_ite]
    exact ⟨fun _ => ⟨trivial,fun _ => trivial⟩,fun _ => ⟨trivial,fun _ => trivial⟩⟩
  · rw [Program.wp_bind,Program.wp_ofExcept]
    exact ⟨fun text _ => ⟨trivial,fun _ => trivial⟩,fun _ _ => trivial⟩

/-- Everything was allowed after what had been done by then. -/
def Legal (o : RuntimeOptions) (h : Past) : Prop := ∀ after entry before, h = after ++ entry :: before → Allow o before entry.1

theorem Legal.tail {entry : Entry Op Ans Failure} (legal : Legal o (entry :: h)) : Legal o h := fun after entry' before split =>
  legal (entry :: after) entry' before (congrArg (List.cons entry) split)

theorem Within.tail {entry : Entry Op Ans Failure} (within : Within o (entry :: h)) : Within o h := by
  unfold Within at within
  split at within
  · trivial
  · rename_i same
    cases same
    exact within.2
  · rename_i same
    cases same
    exact within

theorem Legal.total (legal : Legal o h) : (dispatches h).length ≤ o.maxToolCalls := by
  fun_induction dispatches h with
  | case1 => exact Nat.zero_le _
  | case2 tool answer h ih => exact (legal [] _ h rfl).total
  | case3 entry h other ih => exact ih legal.tail

theorem Legal.accepted_le (legal : Legal o h) : accepted h ≤ o.maxIterations := by
  fun_induction accepted h with
  | case1 => exact Nat.zero_le _
  | case2 provider message answer h ih => exact legal [] _ h rfl
  | case3 entry h other ih => exact ih legal.tail

theorem Legal.repeats (legal : Legal o h) (within : Within o h) (c : ToolCall) :
    occurrences c (dispatches h) ≤ o.maxRepeatedToolCalls := by
  fun_induction dispatches h with
  | case1 => exact Nat.zero_le _
  | case2 tool answer h ih =>
    by_cases same : SamePair c tool
    · rw [occurrences_cons same,occurrences_congr same]
      exact (legal [] _ h rfl).repeats within
    · rw [occurrences_cons_of_not same]
      exact ih legal.tail within
  | case3 entry h other ih => exact ih legal.tail within.tail

end Rules

/-- A run keeps its budgets whatever the model and the tools do, and no pair of a tool and its
arguments is dispatched too often unless an answer stands in for itself. -/
theorem run_within_budgets (o : RuntimeOptions) (messages : List AgentMessage) {h : Past} {q : Run Unit}
    (ran : Program.Ran (run o messages) h q) :
    (dispatches h).length ≤ o.maxToolCalls ∧ accepted h ≤ o.maxIterations ∧
    (∀ after c answer before, h = after ++ ⟨.dispatch c,answer⟩ :: before → deniedTool c.name = false ∧
      (classified c.name before = some .read ∨ classified c.name before = some .proposal)) ∧
    (Within o h → ∀ c, occurrences c (dispatches h) ≤ o.maxRepeatedToolCalls) := by
  have legal : Legal o h := fun after entry before split => Program.Ran.allowed (split ▸ ran) (run_wp messages)
  refine ⟨legal.total,legal.accepted_le,fun after c answer before split => ?_,legal.repeats⟩
  have may : MayDispatch o before c := legal after ⟨.dispatch c,answer⟩ before split
  exact ⟨may.permitted,may.effect⟩

namespace Sample

/-- An order of the locale in which short keys come first. -/
private def locale : Locale where
  localeCompare a b := (a.length : ℤ) - b.length
  numeral _ := []
  total a b := by omega
  trans a b c := by omega

private def options (maxRepeated : ℕ) : RuntimeOptions := ⟨["model"],true,false,false,2,2,maxRepeated,locale⟩

private def lookUp (id : String) : Option RawCall := some ⟨some id,some "quote",.null⟩

private def answer : ModelResponse := some ⟨"assistant",some "",.array [lookUp "a",lookUp "b"]⟩

private def tool (id : String) : ToolCall := ⟨id,"quote",.null⟩

private theorem same (id id' : String) : SamePair (tool id) (tool id') := ⟨rfl,rfl⟩

private theorem two (id first second : String) : occurrences (tool id) [tool first,tool second] = 2 := by
  rw [occurrences_cons (same id first),occurrences_cons (same id second)]
  rfl

/-- The answer twice calls one tool, which may be called twice. -/
theorem run_within_budgets_twice : ∃ h, dispatches h = [tool "b",tool "a"] ∧ Within (options 2) h ∧
    (dispatches h).length ≤ 2 ∧ occurrences (tool "a") (dispatches h) ≤ 2 := by
  have started := (Program.Ran.start (run (options 2) [])).perform (.ok ())
  have asked := ((started.perform (.ok false)).perform (.ok ())).perform (.ok ())
  have responded := (asked.perform (.ok answer)).perform (.ok ())
  have checked := (responded.perform (.ok (some .read))).perform (.ok (some .read))
  have one := (checked.perform (.ok ())).perform (.ok .null)
  have both := ((one.perform (.ok ())).perform (.ok ())).perform (.ok .null)
  obtain ⟨total,_,_,repeats⟩ := run_within_budgets (options 2) [] both
  have fits (id : String) : occurrences (tool id) [] + occurrences (tool id) [tool "a",tool "b"] ≤ 2 := by
    rw [two]
    exact le_refl _
  suffices within : Within (options 2) _ from ⟨_,rfl,within,total,repeats within (tool "a")⟩
  exact ⟨fun message before found _ => by cases found; exact fits "b",
    fun message before found _ => by cases found; exact fits "a",trivial⟩

/-- Where it may be called once, both calls are let through all the same. -/
theorem repeated_in_one_answer : ¬∀ (o : RuntimeOptions) (messages : List AgentMessage) (h : Past) (q : Run Unit),
    Program.Ran (run o messages) h q → ∀ c, occurrences c (dispatches h) ≤ o.maxRepeatedToolCalls := by
  intro all
  have started := (Program.Ran.start (run (options 1) [])).perform (.ok ())
  have asked := ((started.perform (.ok false)).perform (.ok ())).perform (.ok ())
  have responded := (asked.perform (.ok answer)).perform (.ok ())
  have checked := (responded.perform (.ok (some .read))).perform (.ok (some .read))
  have one := (checked.perform (.ok ())).perform (.ok .null)
  have both := ((one.perform (.ok ())).perform (.ok ())).perform (.ok .null)
  have bound : occurrences (tool "a") [tool "b",tool "a"] ≤ 1 := all (options 1) [] _ _ both (tool "a")
  rw [two] at bound
  omega

end Sample

end RatifyOs.Agent
