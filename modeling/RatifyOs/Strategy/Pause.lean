import RatifyOs.Strategy.Runner

/-! What becomes of a pause: a tick works on the rows it has read, and the row it has in
hand is written back as it was read. -/
namespace RatifyOs.Strategy
open Async Data
open Async.Program hiding pure throw

abbrev Past := History Op Op.Ans String

def hands : Past → Option (List String)
  | [] => none
  | ⟨.enter,.ok true⟩ :: _ => some []
  | ⟨.leave,_⟩ :: _ => none
  | ⟨.due _,.ok rows⟩ :: _ => some (rows.map StrategyRow.id)
  | ⟨.save row,.ok _⟩ :: before => (hands before).map fun ids => ids.erase row.id
  | _ :: before => hands before

/-- The operator has stopped a strategy and not started it again. -/
def stopped (id : String) : Past → Bool
  | [] => false
  | ⟨.setStatus i status,.ok true⟩ :: before =>
    if i = id then
      match status with
      | .active => false
      | .paused | .done => true
      | .errored => stopped id before
    else stopped id before
  | _ :: before => stopped id before

/-- What a tick may do with what it has in hand. -/
def allow (h : Past) : Op → Prop
  | .enter => hands h = none
  | .leave | .due _ => (hands h).isSome
  | .save row => ∃ ids, hands h = some ids ∧ row.id ∈ ids
  | .swap _ idem => ∃ ids, hands h = some ids ∧ idem.strategy ∈ ids
  | _ => True

section Hands
variable {h : Past}

@[simp] theorem hands_now (answer : Except String ℤ) : hands (⟨.now,answer⟩ :: h) = hands h := rfl

@[simp] theorem hands_price (mint : String) (answer : Except String (Option Double)) :
    hands (⟨.price mint,answer⟩ :: h) = hands h := rfl

@[simp] theorem hands_swap (req : StrategySwap) (idem : RunKey) (answer : Except String StrategySwapResult) :
    hands (⟨.swap req idem,answer⟩ :: h) = hands h := rfl

@[simp] theorem hands_notify (userId : ℤ) (text : String) (answer : Except String Unit) :
    hands (⟨.notify userId text,answer⟩ :: h) = hands h := rfl

@[simp] theorem hands_saved (row : StrategyRow) (u : Unit) :
    hands (⟨.save row,.ok u⟩ :: h) = (hands h).map fun ids => ids.erase row.id := rfl

@[simp] theorem hands_unsaved (row : StrategyRow) (error : String) :
    hands (⟨.save row,.error error⟩ :: h) = hands h := rfl

@[simp] theorem hands_due (now : ℤ) (rows : List StrategyRow) :
    hands (⟨.due now,.ok rows⟩ :: h) = some (rows.map StrategyRow.id) := rfl

@[simp] theorem hands_undue (now : ℤ) (error : String) : hands (⟨.due now,.error error⟩ :: h) = hands h := rfl

end Hands

section Discipline
variable {h : Past} {id : String} {rest : List String} {Q : Unit → Past → Prop} {E : String → Past → Prop}

theorem notify_wp (e : StrategyExecutor) (strat : StrategyRow) (text : String) {ids : Option (List String)}
    (inHand : hands h = ids) :
    (notify e strat text).wp allow (fun _ after => hands after = ids) E h := by
  unfold notify
  split
  · simp only [wp_tryCatch,wp_call,wp_pure]
    exact ⟨trivial,fun _ => inHand,fun _ => inHand⟩
  · exact inHand

theorem reschedule_wp (strat : StrategyRow) {ids : List String} (inHand : hands h = some ids) :
    (reschedule strat).wp allow (fun row after => row.id = strat.id ∧ hands after = some ids)
      (fun _ after => (hands after).isSome) h := by
  unfold reschedule
  simp only [wp_bind,wp_call,wp_pure]
  refine ⟨trivial,?_,?_⟩
  · intro now
    exact ⟨rfl,inHand⟩
  · intro error
    simp [inHand]

theorem save_wp (strat : StrategyRow) (same : strat.id = id) (inHand : hands h = some (id :: rest))
    (done : ∀ after, hands after = some rest → Q () after)
    (failed : ∀ error after, hands after = some (id :: rest) → E error after) :
    (call (Op.save strat)).wp allow Q E h := by
  rw [wp_call]
  refine ⟨⟨_,inHand,by simp [same]⟩,?_,?_⟩
  · intro u
    apply done
    rw [hands_saved,inHand,same]
    simp
  · intro error
    exact failed _ _ inHand

theorem broken_wp (strat : StrategyRow) (message : String) (same : strat.id = id)
    (inHand : hands h = some (id :: rest)) :
    (broken strat message).wp allow (fun _ after => hands after = some rest)
      (fun _ after => (hands after).isSome) h := by
  unfold broken
  rw [wp_bind]
  apply wp_mono _ (reschedule_wp _ inHand)
  · rintro row after ⟨kept,still⟩
    apply save_wp row (kept.trans same) still
    · exact fun _ let_go => let_go
    · intro _ _ still
      simp [still]
  · exact fun _ _ running => running

theorem saved_wp (strat : StrategyRow) (then_ : Runner Unit) (same : strat.id = id)
    (inHand : hands h = some (id :: rest))
    (continues : ∀ after, hands after = some rest →
      then_.wp allow (fun _ after => hands after = some rest) (fun _ after => (hands after).isSome) after) :
    (saved strat then_).wp allow (fun _ after => hands after = some rest)
      (fun _ after => (hands after).isSome) h := by
  unfold saved
  rw [wp_attempt]
  apply save_wp strat same inHand continues
  intro error after still
  exact broken_wp strat error same still

theorem answered_wp (e : StrategyExecutor) (strat : StrategyRow) (req : StrategySwap) (res : StrategySwapResult)
    (same : strat.id = id) {ids : List String} (inHand : hands h = some ids) :
    (answered e strat req res).wp allow (fun row after => row.id = id ∧ hands after = some ids)
      (fun _ after => hands after = some ids) h := by
  unfold answered
  split
  · unfold succeeded
    rw [wp_bind]
    apply wp_mono _ (notify_wp e _ _ inHand)
    · intro _ later still
      refine ⟨?_,still⟩
      unfold applyProgress
      dsimp only
      split <;> exact same
    · exact fun _ _ still => still
  · unfold refused
    dsimp only
    split
    · rw [wp_bind]
      apply wp_mono _ (notify_wp e _ _ inHand)
      · exact fun _ _ still => ⟨same,still⟩
      · exact fun _ _ still => still
    · exact ⟨same,inHand⟩

theorem completed_wp (e : StrategyExecutor) (strat : StrategyRow) (same : strat.id = id) {ids : List String}
    (inHand : hands h = some ids) :
    (completed e strat).wp allow (fun row after => row.id = id ∧ hands after = some ids)
      (fun _ after => hands after = some ids) h := by
  unfold completed
  split
  · rw [wp_bind]
    apply wp_mono _ (notify_wp e _ _ inHand)
    · exact fun _ _ still => ⟨same,still⟩
    · exact fun _ _ still => still
  · exact ⟨same,inHand⟩

theorem conclude_wp (e : StrategyExecutor) (strat : StrategyRow) (req : StrategySwap) (res : StrategySwapResult)
    (same : strat.id = id) (inHand : hands h = some (id :: rest)) :
    (conclude e strat req res).wp allow (fun _ after => hands after = some rest)
      (fun _ after => (hands after).isSome) h := by
  have running : ∀ (_ : String) (after : Past), hands after = some (id :: rest) → (hands after).isSome := by
    intro _ after still
    simp [still]
  unfold conclude
  rw [wp_bind,wp_call]
  refine ⟨trivial,?_,fun _ => by simp [inHand]⟩
  intro now
  rw [wp_bind]
  have inHand : hands (⟨.now,.ok now⟩ :: h) = some (id :: rest) := inHand
  refine wp_mono _ (answered_wp e _ req res (by exact same) inHand) ?_ running
  rintro row after ⟨same,still⟩
  rw [wp_bind]
  refine wp_mono _ (completed_wp e row same still) ?_ running
  rintro row after ⟨same,still⟩
  rw [wp_bind]
  refine wp_mono _ (reschedule_wp row still) ?_ (fun _ _ running => running)
  rintro row after ⟨kept,still⟩
  exact saved_wp row _ (kept.trans same) still fun _ gone => gone

theorem plan_wp (e : StrategyExecutor) (strat : StrategyRow) {ids : List String} (inHand : hands h = some ids) :
    (plan e strat).wp allow (fun planned after => planned.1.id = strat.id ∧ hands after = some ids)
      (fun _ after => hands after = some ids) h := by
  have here : ∀ row : StrategyRow, row.id = strat.id → row.id = strat.id ∧ hands h = some ids :=
    fun _ same => ⟨same,inHand⟩
  unfold plan
  dsimp only
  split
  · exact here _ rfl
  · exact here _ rfl
  all_goals
    split_ifs
    · exact here _ rfl
    · change wp allow (_ >>= _) _ _ _
      rw [wp_bind,wp_call]
      refine ⟨trivial,?_,fun _ => inHand⟩
      rintro (_ | price)
      · exact ⟨rfl,inHand⟩
      · exact ⟨rfl,inHand⟩

theorem step_wp (e : StrategyExecutor) (strat : StrategyRow) (inHand : hands h = some (strat.id :: rest)) :
    (step e strat).wp allow (fun _ after => hands after = some rest) (fun _ after => (hands after).isSome) h := by
  unfold step
  rw [wp_attempt]
  apply wp_mono _ (plan_wp e strat inHand)
  · rintro ⟨row,decided⟩ after ⟨same,still⟩
    change row.id = strat.id at same
    cases decided with
    | done =>
      refine saved_wp _ _ same still ?_
      exact fun _ gone => notify_wp e _ _ gone
    | skip =>
      dsimp only
      rw [wp_bind]
      apply wp_mono _ (reschedule_wp row still) _ (fun _ _ running => running)
      rintro next later ⟨kept,still⟩
      exact saved_wp next _ (kept.trans same) still fun _ gone => gone
    | swap req =>
      dsimp only
      rw [wp_attempt,wp_call]
      refine ⟨⟨_,still,by simp [same]⟩,?_,?_⟩
      · intro res
        exact conclude_wp e row req res same still
      · intro error
        exact broken_wp row error same still
  · intro error after still
    exact broken_wp strat error rfl still

theorem steps_wp (e : StrategyExecutor) (rows : List StrategyRow) (inHand : hands h = some (rows.map StrategyRow.id)) :
    (steps e rows).wp allow (fun _ after => (hands after).isSome) (fun _ after => (hands after).isSome) h := by
  induction rows generalizing h with
  | nil =>
    change (hands h).isSome
    simp [inHand]
  | cons strat rest ih =>
    unfold steps
    rw [wp_bind]
    apply wp_mono _ (step_wp e strat inHand)
    · intro _ after still
      exact ih still
    · exact fun _ _ running => running

theorem tick_wp (e : StrategyExecutor) : (tick e).wp allow (fun _ _ => True) (fun _ _ => True) [] := by
  unfold tick
  rw [wp_bind,wp_call]
  refine ⟨rfl,?_,fun _ => trivial⟩
  rintro (_ | _)
  · trivial
  · have leave : ∀ (after : Past) (Q : Unit → Past → Prop) (E : String → Past → Prop), (hands after).isSome →
        (∀ u later, Q u later) → (∀ error later, E error later) → (call Op.leave).wp allow Q E after := by
      intro after Q E running returns throws
      rw [wp_call]
      exact ⟨running,fun _ => returns _ _,fun _ => throws _ _⟩
    simp only [if_true]
    rw [wp_bind,wp_tryCatch,wp_bind,wp_call]
    refine ⟨trivial,?_,?_⟩
    · intro now
      rw [wp_bind,wp_call]
      refine ⟨rfl,?_,?_⟩
      · intro rows
        apply wp_mono _ (steps_wp e rows (hands_due now rows))
        · intro _ after running
          exact leave after _ _ running (fun _ _ => trivial) (fun _ _ => trivial)
        · intro error after running
          rw [wp_bind]
          exact leave after _ _ running (fun _ _ => trivial) (fun _ _ => trivial)
      · intro error
        rw [wp_bind]
        exact leave _ _ _ rfl (fun _ _ => trivial) (fun _ _ => trivial)
    · intro error
      rw [wp_bind]
      exact leave _ _ _ rfl (fun _ _ => trivial) (fun _ _ => trivial)

theorem program_wp (e : StrategyExecutor) (call : Call) :
    ((strategies e).program call).wp allow (fun _ _ => True) (fun _ _ => True) [] := by
  cases call with
  | tick => exact tick_wp e
  | setStatus id status =>
    change wp allow (_ >>= _) _ _ _
    rw [wp_bind,wp_call]
    exact ⟨trivial,fun _ => trivial,fun _ => trivial⟩
  | create userId kind params firstRunAt =>
    change wp allow (Program.call _) _ _ _
    rw [wp_call]
    exact ⟨trivial,fun _ => trivial,fun _ => trivial⟩

end Discipline

abbrev Pool := Config Op Op.Ans String State

/-- The effects that move a row into or out of a tick's hands. -/
def grips : Entry Op Op.Ans String → Bool
  | ⟨.enter,.ok true⟩ | ⟨.leave,_⟩ | ⟨.due _,.ok _⟩ | ⟨.save _,.ok _⟩ => true
  | _ => false

attribute [local simp] grips handle

theorem hands_of_not_grips {entry : Entry Op Op.Ans String} (h : Past) (other : grips entry = false) :
    hands (entry :: h) = hands h := by
  obtain ⟨op,answer⟩ := entry
  cases op with
  | enter =>
    rcases answer with error | (_ | _)
    · rfl
    · rfl
    · simp at other
  | leave => simp at other
  | due now =>
    cases answer with
    | error error => rfl
    | ok rows => simp at other
  | save row =>
    cases answer with
    | error error => rfl
    | ok u => simp at other
  | now => rfl
  | price mint => rfl
  | swap req idem => rfl
  | notify userId text => rfl
  | setStatus id status => rfl
  | create userId kind params firstRunAt => rfl

theorem running_of_not_grips {choice : Sample} {op : Op} {s : State}
    (other : grips ⟨op,(handle choice op s).1⟩ = false) : (handle choice op s).2.running = s.running := by
  cases op with
  | enter =>
    cases running : s.running with
    | false => simp [running] at other
    | true => rfl
  | leave => simp at other
  | create userId kind params firstRunAt =>
    simp only [handle,Sample.statement]
    split
    · split <;> rfl
    · rfl
  | due now =>
    simp only [handle,Sample.statement]
    split <;> rfl
  | save row =>
    simp only [handle,Sample.statement]
    split <;> rfl
  | setStatus id status =>
    simp only [handle,Sample.statement]
    split <;> rfl
  | now => rfl
  | price mint => rfl
  | swap req idem => rfl
  | notify userId text => rfl

/-- At most one tick has rows in hand, the flag says so, and the trace knows which. -/
def Working (c : Pool) : Prop :=
  ∀ i t ids, c.threads i = some t → hands t.history = some ids →
    c.state.running = true ∧ hands c.trace = some ids ∧
      ∀ j u, c.threads j = some u → (hands u.history).isSome → j = i

section Runs
variable {e : StrategyExecutor} {c : Pool} {event : Event Call Sample}

section Performs
variable {i : ℕ} {op : Op} {next : Except String op.Ans → Program Op Op.Ans String Unit} {history : Past} {choice : Sample}

/-- Nothing moves, so every thread stands as it did. -/
theorem Working.still (working : Working c) (here : c.threads i = some ⟨.perform op next,history⟩)
    (quiet : grips ⟨op,(handle choice op c.state).1⟩ = false) :
    Working ⟨(handle choice op c.state).2,Function.update c.threads i
      (some ⟨next (handle choice op c.state).1,⟨op,(handle choice op c.state).1⟩ :: history⟩),c.count,
        ⟨op,(handle choice op c.state).1⟩ :: c.trace⟩ := by
  have before : ∀ j t, Function.update c.threads i (some ⟨next (handle choice op c.state).1,
      ⟨op,(handle choice op c.state).1⟩ :: history⟩) j = some t →
      ∃ u, c.threads j = some u ∧ hands u.history = hands t.history := by
    intro j t found
    rcases System.thread_updated found with ⟨rfl,rfl⟩ | ⟨_,there⟩
    · exact ⟨_,here,by rw [hands_of_not_grips _ quiet]⟩
    · exact ⟨t,there,rfl⟩
  intro j t ids found inHand
  obtain ⟨u,there,same⟩ := before j t found
  obtain ⟨running,known,alone⟩ := working j u ids there (same.trans inHand)
  refine ⟨(running_of_not_grips quiet).trans running,(hands_of_not_grips _ quiet).trans known,?_⟩
  intro k v found some'
  obtain ⟨w,there,same⟩ := before k v found
  exact alone k w there (same ▸ some')

/-- The call that moves something is the one with rows in hand, or the one that takes the flag. -/
theorem Working.mine (working : Working c) (here : c.threads i = some ⟨.perform op next,history⟩) (allowed : allow history op)
    (moves : grips ⟨op,(handle choice op c.state).1⟩ ≠ false) {j : ℕ} {t : Thread Op Op.Ans String}
    (there : c.threads j = some t) (some' : (hands t.history).isSome) : j = i := by
  obtain ⟨ids,inHand⟩ := Option.isSome_iff_exists.mp some'
  obtain ⟨running,-,alone⟩ := working j t ids there inHand
  cases op with
  | enter => simp [running] at moves
  | leave => exact (alone i _ here allowed).symm
  | due now => exact (alone i _ here allowed).symm
  | save row =>
    obtain ⟨_,held,_⟩ := allowed
    exact (alone i _ here (by simp [held])).symm
  | _ => exact absurd rfl moves

/-- The flag and the trace know the rows that the call has in hand once it has moved. -/
theorem Working.moved (working : Working c) (here : c.threads i = some ⟨.perform op next,history⟩) (allowed : allow history op)
    (moves : grips ⟨op,(handle choice op c.state).1⟩ ≠ false) {ids : List String}
    (inHand : hands (⟨op,(handle choice op c.state).1⟩ :: history) = some ids) :
    (handle choice op c.state).2.running = true ∧ hands (⟨op,(handle choice op c.state).1⟩ :: c.trace) = some ids := by
  cases op with
  | enter =>
    cases running : c.state.running with
    | true => simp [running] at moves
    | false =>
      simp only [handle,running,Bool.not_false] at inHand
      refine ⟨rfl,?_⟩
      simp only [handle,running,Bool.not_false]
      exact inHand
  | leave => cases inHand
  | due now =>
    obtain ⟨old,held⟩ := Option.isSome_iff_exists.mp allowed
    have running := (working i _ old here held).1
    cases failure : choice.failure with
    | some message => simp [Sample.statement,failure] at moves
    | none =>
      simp only [handle,Sample.statement,failure] at inHand
      constructor
      · simpa [Sample.statement,failure] using running
      · simp only [handle,Sample.statement,failure]
        exact inHand
  | save row =>
    obtain ⟨old,held,_⟩ := allowed
    obtain ⟨running,known,_⟩ := working i _ old here held
    cases failure : choice.failure with
    | some message => simp [Sample.statement,failure] at moves
    | none =>
      simp only [handle,Sample.statement,failure] at inHand
      change (hands history).map _ = some ids at inHand
      rw [held] at inHand
      constructor
      · simpa [Sample.statement,failure] using running
      · simp only [handle,Sample.statement,failure]
        change (hands c.trace).map _ = some ids
        rw [known]
        exact inHand
  | _ => exact absurd rfl moves

theorem Working.perform (working : Working c) (here : c.threads i = some ⟨.perform op next,history⟩) (allowed : allow history op) :
    Working ⟨(handle choice op c.state).2,Function.update c.threads i
      (some ⟨next (handle choice op c.state).1,⟨op,(handle choice op c.state).1⟩ :: history⟩),c.count,
        ⟨op,(handle choice op c.state).1⟩ :: c.trace⟩ := by
  by_cases quiet : grips ⟨op,(handle choice op c.state).1⟩ = false
  · exact working.still here quiet
  have only : ∀ j t, Function.update c.threads i (some ⟨next (handle choice op c.state).1,
      ⟨op,(handle choice op c.state).1⟩ :: history⟩) j = some t → (hands t.history).isSome → j = i := by
    intro j t found some'
    rcases System.thread_updated found with ⟨same,_⟩ | ⟨_,there⟩
    · exact same
    · exact working.mine here allowed quiet there some'
  intro j t ids found inHand
  have mine := only j t found (by simp [inHand])
  rcases System.thread_updated found with ⟨_,rfl⟩ | ⟨other,_⟩
  · obtain ⟨running,known⟩ := working.moved here allowed quiet inHand
    exact ⟨running,known,fun k v there some' => (only k v there some').trans mine.symm⟩
  · exact absurd mine other

end Performs

theorem working_step (obeys : System.Obeys allow (fun _ => True) c) (working : Working c) :
    Working ((strategies e).step c event) := by
  cases event with
  | start call =>
    intro i t ids found inHand
    cases (strategies e).thread_of_step found with
    | started _ _ fresh =>
      subst fresh
      cases inHand
    | resumed _ _ _ _ performed => cases performed
    | kept there _ =>
      obtain ⟨running,known,alone⟩ := working i t ids there inHand
      refine ⟨running,known,?_⟩
      intro j u found some'
      cases (strategies e).thread_of_step found with
      | started _ _ fresh =>
        subst fresh
        cases some'
      | resumed _ _ _ _ performed => cases performed
      | kept there _ => exact alone j u there some'
  | ambient choice => exact working
  | crash =>
    intro i t ids found
    cases found
  | perform i choice =>
    rcases (strategies e).perform_cases c i choice with ⟨op,next,history,here⟩ | idle
    · rw [(strategies e).perform_eq here]
      exact working.perform here (obeys.allowed here)
    · rw [idle]
      exact working

end Runs

/-- A tick is under way that has read the strategy and not written it back. -/
def InHands (c : Pool) (id : String) : Prop :=
  c.state.running = true ∧ ∃ ids, hands c.trace = some ids ∧ id ∈ ids

/-- The operator stops a strategy only while no tick has it in hand. -/
def Timely (c : Pool) (event : Event Call Sample) : Prop :=
  ∀ i choice id status next history, event = .perform i choice →
    c.threads i = some ⟨.perform (.setStatus id status) next,history⟩ →
      status = .paused ∨ status = .done → ¬InHands c id

/-- A stopped strategy is not active. -/
def Upheld (c : Pool) : Prop :=
  ∀ id, stopped id c.trace = true → (c.state.strategies.find? id).map StrategyRow.status ≠ some .active

/-- No swap of a stopped strategy begins. -/
def NoNewSwap (c : Pool) (event : Event Call Sample) : Prop :=
  ∀ i choice req idem next history, event = .perform i choice →
    c.threads i = some ⟨.perform (.swap req idem) next,history⟩ → stopped idem.strategy c.trace = false

def Parked (c : Pool) : Prop :=
  ∀ id, stopped id c.trace = true →
    (∃ status, (c.state.strategies.find? id).map StrategyRow.status = some status ∧ status ≠ .active) ∧ ¬InHands c id

theorem Parked.upheld {c : Pool} (parked : Parked c) : Upheld c := by
  intro id halted active
  obtain ⟨status,found,other⟩ := (parked id halted).1
  exact other (Option.some.inj (found.symm.trans active))

section Parking
variable {e : StrategyExecutor} {c : Pool} {event : Event Call Sample} {i : ℕ} {op : Op}
  {next : Except String op.Ans → Program Op Op.Ans String Unit} {history : Past}

theorem Working.inHands (working : Working c) {program : Program Op Op.Ans String Unit} {id : String}
    (here : c.threads i = some ⟨program,history⟩) (held : ∃ ids, hands history = some ids ∧ id ∈ ids) : InHands c id := by
  obtain ⟨ids,inHand,inside⟩ := held
  obtain ⟨running,known,_⟩ := working i _ ids here inHand
  exact ⟨running,ids,known,inside⟩

theorem Parked.calm (parked : Parked c) {entry : Entry Op Op.Ans String}
    (calm : ∀ id, stopped id (entry :: c.trace) = stopped id c.trace) (still : hands (entry :: c.trace) = hands c.trace) :
    Parked ⟨c.state,c.threads,c.count,entry :: c.trace⟩ := by
  intro id halted
  rw [calm] at halted
  obtain ⟨there,free⟩ := parked id halted
  refine ⟨there,?_⟩
  rintro ⟨running,ids,held,inside⟩
  exact free ⟨running,ids,still ▸ held,inside⟩

theorem Parked.enter (parked : Parked c) (choice : Sample) : Parked ⟨(handle choice .enter c.state).2,c.threads,c.count,
    ⟨.enter,(handle choice .enter c.state).1⟩ :: c.trace⟩ := by
  cases running : c.state.running with
  | true =>
    have raised : { c.state with running := true } = c.state := by rw [← running]
    have unchanged : handle choice .enter c.state = (.ok false,c.state) := by
      simp only [handle,running,raised,Bool.not_true]
    rw [unchanged]
    exact parked.calm (fun _ => rfl) rfl
  | false =>
    intro id halted
    refine ⟨(parked id halted).1,?_⟩
    rintro ⟨_,ids,held,inside⟩
    simp only [handle,running] at held
    cases held
    cases inside

/-- Only active rows are due. -/
theorem Parked.due (parked : Parked c) (choice : Sample) (now : ℤ) : Parked ⟨(handle choice (.due now) c.state).2,c.threads,
    c.count,⟨.due now,(handle choice (.due now) c.state).1⟩ :: c.trace⟩ := by
  cases failure : choice.failure with
  | some message =>
    simp only [handle,Sample.statement,failure]
    exact parked.calm (fun _ => rfl) rfl
  | none =>
    simp only [handle,Sample.statement,failure]
    intro id halted
    obtain ⟨there,free⟩ := parked id halted
    refine ⟨there,?_⟩
    rintro ⟨_,ids,held,inside⟩
    cases held
    obtain ⟨row,listed,rfl⟩ := List.mem_map.mp inside
    obtain ⟨stored,active⟩ := Strategies.active_of_due listed
    apply parked.upheld row.id halted
    rw [Table.find?_of_mem stored]
    exact congrArg some active

/-- A tick saves only a row that it has in hand. -/
theorem Parked.save (parked : Parked c) (choice : Sample) {row : StrategyRow} (mine : InHands c row.id) :
    Parked ⟨(handle choice (.save row) c.state).2,c.threads,c.count,⟨.save row,(handle choice (.save row) c.state).1⟩ :: c.trace⟩ := by
  cases failure : choice.failure with
  | some message =>
    simp only [handle,Sample.statement,failure]
    exact parked.calm (fun _ => rfl) rfl
  | none =>
    simp only [handle,Sample.statement,failure]
    intro id halted
    obtain ⟨there,free⟩ := parked id halted
    have other : row.id ≠ id := fun same => free (same ▸ mine)
    constructor
    · simpa only [Strategies.find?_save,if_neg other] using there
    · rintro ⟨running,ids,held,inside⟩
      obtain ⟨before,known,rfl⟩ := Option.map_eq_some_iff.mp held
      exact free ⟨running,before,known,List.mem_of_mem_erase inside⟩

theorem Parked.setStatus (parked : Parked c) (choice : Sample) {id : String} {status : StrategyStatus}
    (free : status = .paused ∨ status = .done → ¬InHands c id) : Parked ⟨(handle choice (.setStatus id status) c.state).2,c.threads,
      c.count,⟨.setStatus id status,(handle choice (.setStatus id status) c.state).1⟩ :: c.trace⟩ := by
  cases failure : choice.failure with
  | some message =>
    simp only [handle,Sample.statement,failure]
    exact parked.calm (fun _ => rfl) rfl
  | none =>
    simp only [handle,Sample.statement,failure]
    intro other halted
    simp only at halted ⊢
    cases found : c.state.strategies.find? id with
    | none =>
      have nothing : c.state.strategies.setStatus id status = c.state.strategies := by
        simp [Strategies.setStatus,found]
      rw [nothing]
      simp only [found,Option.isSome_none] at halted ⊢
      exact parked other halted
    | some row =>
      simp only [found,Option.isSome_some] at halted ⊢
      rw [Strategies.find?_setStatus]
      by_cases here : id = other
      · subst here
        simp only [stopped,if_true] at halted
        simp only [if_true,found,Option.map_some]
        cases status with
        | active => cases halted
        | paused => exact ⟨⟨_,rfl,by simp⟩,free (.inl rfl)⟩
        | done => exact ⟨⟨_,rfl,by simp⟩,free (.inr rfl)⟩
        | errored => exact ⟨⟨_,rfl,by simp⟩,(parked id halted).2⟩
      · simp only [stopped,if_neg here] at halted
        simp only [if_neg here]
        exact parked other halted

/-- A new strategy takes no id of a stopped one. -/
theorem Parked.create (parked : Parked c) (choice : Sample) (userId : ℤ) (kind : StrategyKind) (params : Params)
    (firstRunAt : Double) :
    Parked ⟨(handle choice (.create userId kind params firstRunAt) c.state).2,c.threads,c.count,
      ⟨.create userId kind params firstRunAt,(handle choice (.create userId kind params firstRunAt) c.state).1⟩ :: c.trace⟩ := by
  simp only [handle]
  split
  · rename_i grown inserted
    cases failure : choice.failure with
    | some message =>
      simp only [Sample.statement,failure]
      exact parked.calm (fun _ => rfl) rfl
    | none =>
      simp only [Sample.statement,failure]
      intro id halted
      obtain ⟨⟨status,found,other⟩,free⟩ := parked id halted
      refine ⟨⟨status,?_,other⟩,free⟩
      rw [Table.find?_insert? inserted]
      split
      · rename_i taken
        have absent := (Table.insert?_eq_some_iff.mp inserted).1
        change c.state.strategies.find? choice.id = none at absent
        rw [show choice.id = id from taken] at absent
        simp [absent] at found
      · exact found
  · exact parked.calm (fun _ => rfl) rfl

theorem parked_perform (choice : Sample) (working : Working c) (parked : Parked c) (timely : Timely c (.perform i choice))
    (here : c.threads i = some ⟨.perform op next,history⟩) (allowed : allow history op) :
    Parked ⟨(handle choice op c.state).2,c.threads,c.count,⟨op,(handle choice op c.state).1⟩ :: c.trace⟩ := by
  cases op with
  | enter => exact parked.enter choice
  | leave =>
    intro id halted
    refine ⟨(parked id halted).1,?_⟩
    rintro ⟨running,_⟩
    cases running
  | due now => exact parked.due choice now
  | save row => exact parked.save choice (working.inHands here allowed)
  | setStatus id status => exact parked.setStatus choice (timely i choice id status next history rfl here)
  | create userId kind params firstRunAt => exact parked.create choice userId kind params firstRunAt
  | now => exact parked.calm (fun _ => rfl) rfl
  | price mint => exact parked.calm (fun _ => rfl) rfl
  | swap req idem => exact parked.calm (fun _ => rfl) rfl
  | notify userId text => exact parked.calm (fun _ => rfl) rfl

theorem parked_step (obeys : System.Obeys allow (fun _ => True) c) (working : Working c) (parked : Parked c)
    (timely : Timely c event) : Parked ((strategies e).step c event) := by
  cases event with
  | start call => exact parked
  | ambient choice => exact parked
  | crash =>
    intro id halted
    refine ⟨(parked id halted).1,?_⟩
    rintro ⟨running,_⟩
    cases running
  | perform i choice =>
    rcases (strategies e).perform_cases c i choice with ⟨op,next,history,here⟩ | idle
    · rw [(strategies e).perform_eq here]
      exact parked_perform choice working parked timely here (obeys.allowed here)
    · rw [idle]
      exact parked

theorem noNewSwap (obeys : System.Obeys allow (fun _ => True) c) (working : Working c) (parked : Parked c) :
    NoNewSwap c event := by
  intro i choice req idem next history _ here
  cases halted : stopped idem.strategy c.trace with
  | false => rfl
  | true => exact absurd (working.inHands here (obeys.allowed here)) (parked idem.strategy halted).2

end Parking

/-- From any stored strategies, a stop that falls while no tick has the strategy in hand is
kept until the operator starts it again, and no swap of it begins. -/
theorem pause_kept (e : StrategyExecutor) (stored : Strategies) (events : List (Event Call Sample))
    (timely : (strategies e).Meets Timely (Config.initial ⟨stored,false⟩) events) :
    (strategies e).Meets (fun c event => Upheld c ∧ NoNewSwap c event) (Config.initial ⟨stored,false⟩) events ∧
      Upheld ((strategies e).run (Config.initial ⟨stored,false⟩) events) := by
  have along : ∀ (events : List (Event Call Sample)) (c : Pool), System.Obeys allow (fun _ => True) c → Working c →
      Parked c → (strategies e).Meets Timely c events →
        (strategies e).Meets (fun c event => Upheld c ∧ NoNewSwap c event) c events ∧
          Upheld ((strategies e).run c events) := by
    intro events
    induction events with
    | nil => exact fun c _ _ parked _ => ⟨trivial,parked.upheld⟩
    | cons event events ih =>
      intro c obeys working parked timely
      have obeys' := (strategies e).obeys_step (program_wp e) c event obeys
      obtain ⟨rest,final⟩ := ih _ obeys' (working_step obeys working) (parked_step obeys working parked timely.1) timely.2
      exact ⟨⟨⟨parked.upheld,noNewSwap obeys working parked⟩,rest⟩,final⟩
  apply along events _ (System.obeys_initial _) _ _ timely
  · intro i t ids found
    cases found
  · intro id halted
    cases halted

/-! Two budgets due in one tick. -/
section Two

def budget (id : String) : StrategyRow where
  id := id
  userId := 1
  kind := .dca
  status := .active
  params := [("token",.text "mint"),("amountUiPerStep",.number 1)]
  nextRunAt := 0
  createdAt := 0
  lastRunAt := none
  runs := 0
  errors := 0
  lastError := none

def two : Strategies := ⟨[budget "first",budget "second"],by decide⟩

def quiet : Sample := ⟨0,"",.ok none,.ok ⟨true,"done",none⟩,.ok (),none⟩

def silent : StrategyExecutor := ⟨false,false⟩

def stops (c : Pool) : Event Call Sample → Bool
  | .perform i _ =>
    match c.threads i with
    | some ⟨.perform (.setStatus _ _) _,_⟩ => true
    | _ => false
  | _ => false

/-- A step that stops nothing is timely, and so is a stop while no tick runs. -/
theorem timely_of_idle (c : Pool) (event : Event Call Sample) (idle : c.state.running = false ∨ stops c event = false) :
    Timely c event := by
  rintro i choice id status next history rfl here _ ⟨running,_⟩
  rcases idle with still | other
  · simp [still] at running
  · simp [stops,here] at other

/-- The operator pauses the first strategy, and a tick then runs as far as the second's swap. -/
def pausedBefore : List (Event Call Sample) :=
  [.start (.setStatus "first" .paused),.perform 0 quiet,.start .tick,.perform 1 quiet,.perform 1 quiet,
    .perform 1 quiet,.perform 1 quiet,.perform 1 quiet,.perform 1 quiet,.perform 1 quiet]

theorem pause_kept_before :
    (strategies silent).Meets (fun c event => Upheld c ∧ NoNewSwap c event) (Config.initial ⟨two,false⟩) pausedBefore ∧
      Upheld ((strategies silent).run (Config.initial ⟨two,false⟩) pausedBefore) :=
  pause_kept silent two pausedBefore
    (System.meets_mono _ timely_of_idle (by decide +kernel))

/-- The tick as far as its first swap, the two pauses and the rest of the first step. -/
def pausedWhileSwapping : List (Event Call Sample) :=
  [.start .tick,.perform 0 quiet,.perform 0 quiet,.perform 0 quiet,
    .start (.setStatus "first" .paused),.perform 1 quiet,.start (.setStatus "second" .paused),.perform 2 quiet,
    .perform 0 quiet,.perform 0 quiet,.perform 0 quiet,.perform 0 quiet]

def swapping (c : Pool) (i : ℕ) : Option String :=
  match c.threads i with
  | some ⟨.perform (.swap _ idem) _,_⟩ => some idem.strategy
  | _ => none

theorem NoNewSwap.running {c : Pool} {i : ℕ} {choice : Sample} {id : String}
    (none' : NoNewSwap c (.perform i choice)) (begins : swapping c i = some id) : stopped id c.trace = false := by
  unfold swapping at begins
  split at begins
  · rename_i req idem next history here
    cases begins
    exact none' i choice req idem next history rfl here
  · cases begins

/-- The first pause is written over, and the second strategy is swapped all the same. -/
theorem pause_lost :
    (¬∀ (e : StrategyExecutor) (stored : Strategies) (events : List (Event Call Sample)),
      Upheld ((strategies e).run (Config.initial ⟨stored,false⟩) events)) ∧
    ¬∀ (e : StrategyExecutor) (stored : Strategies) (events : List (Event Call Sample)),
      (strategies e).Meets NoNewSwap (Config.initial ⟨stored,false⟩) events := by
  constructor
  · intro upheld
    apply upheld silent two pausedWhileSwapping "first"
    · decide +kernel
    · decide +kernel
  · intro never
    have meets := never silent two (pausedWhileSwapping ++ [.perform 0 quiet])
    rw [System.meets_append] at meets
    have halted : stopped "second" _ = false := meets.2.1.running (by decide +kernel)
    revert halted
    decide +kernel

end Two

end RatifyOs.Strategy
