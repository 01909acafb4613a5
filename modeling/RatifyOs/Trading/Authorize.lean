import RatifyOs.Async.Exclusive
import RatifyOs.Trading.Lifecycle

/-! One authorization and one signing request for an execution, as long as no call takes
up a row in `signing` that another call is still working on or has authorized. -/
namespace RatifyOs.Trading
open Async

def issues (e : String) : Entry Op Op.Ans String → Bool
  | ⟨.issue id _ _ _,.ok _⟩ => id = e
  | _ => false

def signs (e : String) : Entry Op Op.Ans String → Bool
  | ⟨.sign id _ _,_⟩ => id = e
  | _ => false

def looksUp (e : String) : Entry Op Op.Ans String → Bool
  | ⟨.result id _ _,_⟩ => id = e
  | _ => false

def Op.Issues (e : String) : Op → Prop
  | .issue id _ _ _ => id = e
  | _ => False

def Op.Looks (e : String) : Op → Prop
  | .getExecution id => id = e
  | .transition id _ _ => id = e
  | _ => False

/-- The call may authorize `e` without looking at its row again. -/
def Committed (e : String) (thread : Thread Op Op.Ans String) : Prop :=
  ¬thread.program.Quiet (Op.Issues e) (Op.Looks e)

/-- The call has an envelope for `e` that it has not passed on. -/
def HasEnvelope (e : String) (thread : Thread Op Op.Ans String) : Prop :=
  (∃ request evidence references env rest,
    thread.history = ⟨.issue e request evidence references,.ok env⟩ :: rest) ∨
  ∃ states patch x request evidence references env rest, thread.history =
    ⟨.transition e states patch,.ok x⟩ :: ⟨.issue e request evidence references,.ok env⟩ :: rest

/-- A call that reads the row in `signing`, and may authorize on that, is alone: nobody
has authorized the execution and no other call may. -/
def Alone (e : String) (p : Pool) (event : Event Call Choice) : Prop :=
  ∀ i choice next history x, event = .perform i choice →
    p.threads i = some ⟨.perform (.getExecution e) next,history⟩ →
    p.state.row e = some x → x.state = .signing →
    Committed e ⟨next (.ok (some x)),⟨.getExecution e,.ok (some x)⟩ :: history⟩ →
    p.trace.countP (issues e) = 0 ∧ ∀ j t, j ≠ i → p.threads j = some t → ¬Committed e t

/-- Authorized once, handed to the signer once, and a signature that is persisted comes
out of that one signing response or out of a lookup. -/
def AuthorizedOnce (e : String) (p : Pool) : Prop :=
  p.trace.countP (issues e) ≤ 1 ∧ p.trace.countP (signs e) ≤ 1 ∧
    ∀ i authorizationId messageHash signature limit next history,
      p.threads i = some ⟨.perform (.transition e [.signing]
        (persistPatch authorizationId messageHash signature limit)) next,history⟩ →
      ∃ response rest, history = response :: rest ∧ (signs e response ∨ looksUp e response)

/-- The row has not been taken up for signing yet. -/
def Unstarted (e : String) (p : Pool) : Prop :=
  ∀ x, p.state.row e = some x → x.state = .awaitingApproval ∨ x.state = .approved

structure Single (e : String) (p : Pool) : Prop where
  exclusive : System.Exclusive (Committed e) (issues e) p
  unstarted : Unstarted e p → System.Unused (Committed e) (issues e) p
  envelope : System.Exclusive (HasEnvelope e) (signs e) p
  unissued : p.trace.countP (issues e) = 0 → System.Unused (HasEnvelope e) (signs e) p

section Authorize
variable {web3 : Signer.Web3} {c : Deployment}

private theorem quiet_of_unarmed {e : String} {p : Trade Unit} {h : Log} (safe : Safe web3 c p h)
    (unarmed : ¬Armed e h) : p.Quiet (Op.Issues e) (Op.Looks e) := by
  refine p.quiet_of_wp (Armed e) ?_ ?_ h safe unarmed
  · intro h op allowed issues
    cases op with
    | issue id request evidence references =>
      cases issues
      exact allowed
    | _ => cases issues
  · intro h op answer other harmless unarmed armed
    have untouched : touches e ⟨op,answer⟩ = false := by
      cases op <;> simp_all [touches,Op.Looks,Op.Issues]
    have same : lastTouch e (⟨op,answer⟩ :: h) = lastTouch e h := by
      simp [lastTouch,untouched]
    simp only [Armed,LastRead,same] at armed unarmed
    exact unarmed armed

/-- A look at the row commits the call only if it found the row in `signing` or put it
there, and issuing an authorization ends the commitment. -/
private theorem armed_touch {e : String} {op : Op} {answer : Except String op.Ans} {h : Log}
    (touch : touches e ⟨op,answer⟩ = true) (armed : Armed e (⟨op,answer⟩ :: h)) :
    (∃ x, (⟨op,answer⟩ : Entry Op Op.Ans String) = ⟨.getExecution e,.ok (some x)⟩ ∧ x.state = .signing) ∨
      ∃ x, (⟨op,answer⟩ : Entry Op Op.Ans String) =
        ⟨.transition e [.approved] { state := some .signing },.ok x⟩ := by
  have newest : lastTouch e (⟨op,answer⟩ :: h) = some ⟨op,answer⟩ := by simp [lastTouch,touch]
  rcases armed with ⟨x,read,state⟩ | ⟨x,moved⟩
  · exact .inl ⟨x,Option.some.inj (newest.symm.trans read),state⟩
  · exact .inr ⟨x,Option.some.inj (newest.symm.trans moved)⟩

/-- How a call comes to be committed: it was, or it has just seen the row in `signing`. -/
private theorem committed_cases {e : String} {p : Pool} (disciplined : Disciplined web3 c p) {i : ℕ}
    (choice : Choice) {op : Op} {next : Except String op.Ans → Program Op Op.Ans String Unit} {history : Log}
    (here : p.threads i = some ⟨.perform op next,history⟩)
    (committed : Committed e ⟨next (handle choice op p.state).1,⟨op,(handle choice op p.state).1⟩ :: history⟩) :
    (¬op.Issues e ∧ ¬op.Looks e ∧ Committed e ⟨.perform op next,history⟩) ∨
      (∃ x, p.state.row e = some x ∧ x.state = .signing ∧ op = .getExecution e ∧
        (handle choice op p.state).2 = p.state) ∨
      ∃ old x, p.state.row e = some old ∧ old.state = .approved ∧
        op = .transition e [.approved] { state := some .signing } ∧
        (handle choice op p.state).2.row e = some x ∧ x.state = .signing := by
  have safe := disciplined.next here (handle choice op p.state).1
  have armed : Armed e (⟨op,(handle choice op p.state).1⟩ :: history) := by
    by_contra unarmed
    exact committed (quiet_of_unarmed safe unarmed)
  by_cases touch : touches e ⟨op,(handle choice op p.state).1⟩ = true
  · rcases armed_touch touch armed with ⟨x,entry,state⟩ | ⟨x,entry⟩
    · obtain ⟨rfl,answered⟩ := Sigma.mk.inj entry
      exact .inr (.inl ⟨x,Except.ok.inj (eq_of_heq answered),state,rfl,rfl⟩)
    · obtain ⟨rfl,answered⟩ := Sigma.mk.inj entry
      obtain ⟨row,old,found,expected,patched⟩ := transition_answer (eq_of_heq answered)
      exact .inr (.inr ⟨old,x,found,List.mem_singleton.mp expected,rfl,row,by rw [patched]; rfl⟩)
  · have other : ¬op.Issues e ∧ ¬op.Looks e := by
      cases op <;> simp_all [touches,Op.Looks,Op.Issues]
    refine .inl ⟨other.1,other.2,fun quiet => committed ?_⟩
    exact quiet.2.resolve_left other.2 _

private theorem issue_committed {e : String} {op : Op} (issues : op.Issues e)
    (next : Except String op.Ans → Program Op Op.Ans String Unit) (history : Log) :
    Committed e ⟨.perform op next,history⟩ := fun quiet => quiet.1 issues

private theorem unissued_entry {e : String} {op : Op} {answer : Except String op.Ans} (other : ¬op.Issues e) :
    issues e ⟨op,answer⟩ = false := by
  cases op <;> cases answer <;> simp_all [issues,Op.Issues]

private theorem commitment_handover {e : String} {p : Pool} (disciplined : Disciplined web3 c p)
    (single : Single e p) {i : ℕ} {choice : Choice} (alone : Alone e p (.perform i choice)) {op : Op}
    {next : Except String op.Ans → Program Op Op.Ans String Unit} {history : Log}
    (here : p.threads i = some ⟨.perform op next,history⟩) :
    System.Handover (Committed e) (issues e) p i ⟨.perform op next,history⟩
      ⟨next (handle choice op p.state).1,⟨op,(handle choice op p.state).1⟩ :: history⟩
      ⟨op,(handle choice op p.state).1⟩ := by
  by_cases committed :
      Committed e ⟨next (handle choice op p.state).1,⟨op,(handle choice op p.state).1⟩ :: history⟩
  · rcases committed_cases disciplined choice here committed with
      ⟨other,_,held⟩ | ⟨x,found,state,rfl,_⟩ | ⟨old,x,found,state,rfl,_⟩
    · exact .keep (unissued_entry other) fun _ => held
    · have answered : (handle choice (.getExecution e) p.state).1 = .ok (some x) := congrArg Except.ok found
      rw [answered] at committed ⊢
      obtain ⟨never,others⟩ := alone i choice next history x rfl here found state committed
      exact .take rfl never others
    · have before := single.unstarted fun y there => by
        cases Option.some.inj (found.symm.trans there)
        exact .inr state
      exact .take rfl before.2 fun j t _ there => before.1 j t there
  · by_cases issue : op.Issues e
    · exact .use (issue_committed issue next history) committed
    · exact .keep (unissued_entry issue) fun held => absurd held committed

private theorem start_quiet {e : String} (call : Call) : ¬Committed e ⟨(system web3 c).program call,[]⟩ :=
  fun committed => committed (quiet_of_unarmed (program_safe web3 c call) (by simp [Armed,LastRead,lastTouch]))

private theorem unstarted_before {e : String} {p : Pool} {event : Event Call Choice} {p' : Pool}
    (change : Change web3 c e p event p') (unstarted : Unstarted e p') : Unstarted e p := by
  intro x found
  cases change with
  | same row => exact unstarted x (row.trans found)
  | created fresh absent row => simp [absent] at found
  | moved performed here move recorded there expected row =>
    cases Option.some.inj (found.symm.trans there)
    have after := unstarted _ row
    cases move with
    | decide either => exact .inl (List.mem_singleton.mp expected)
    | request => exact .inl (List.mem_singleton.mp expected)
    | start => exact .inr (List.mem_singleton.mp expected)
    | expire live => simp [Execution.patched] at after
    | authorize issued => simpa [Execution.patched] using after
    | persist responded checked attached nonempty approved => simp [Execution.patched,persistPatch] at after
    | settle persisted committed => simp [Execution.patched] at after
    | unknown => simp [Execution.patched] at after
    | drop read known past => simp [Execution.patched] at after
    | doubt read known certain => simp [Execution.patched] at after
    | observe read known seen =>
      have sent := settledState_sent c ‹_›
      rcases after with after | after <;> simp only [Execution.patched,Option.getD_some] at after <;>
        simp [after,TradeState.sent] at sent

private theorem unstarted_step {e : String} {p : Pool} (event : Event Call Choice)
    (disciplined : Disciplined web3 c p) (single : Single e p)
    (unstarted : Unstarted e ((system web3 c).step p event)) :
    System.Unused (Committed e) (issues e) ((system web3 c).step p event) := by
  have change := change_of_step web3 c e disciplined event
  obtain ⟨nobody,zero⟩ := single.unstarted (unstarted_before change unstarted)
  cases event with
  | start call =>
    refine ⟨fun i thread found => ?_,zero⟩
    by_cases same : i = p.count
    · subst same
      simp only [System.step,Function.update_self,Option.some.injEq] at found
      exact found ▸ start_quiet call
    · simp only [System.step,Function.update_of_ne same] at found
      exact nobody i thread found
  | ambient choice => exact ⟨nobody,zero⟩
  | crash => exact ⟨fun i thread found => by simp [System.step] at found,zero⟩
  | perform i choice =>
    rcases (system web3 c).perform_cases p i choice with ⟨op,next,history,here⟩ | idle
    · rw [(system web3 c).perform_eq here] at unstarted ⊢
      have other : ¬op.Issues e := fun issue => nobody i _ here (issue_committed issue next history)
      refine ⟨fun j thread found => ?_,?_⟩
      · rcases System.thread_updated found with ⟨rfl,rfl⟩ | ⟨_,found⟩
        · intro committed
          rcases committed_cases disciplined choice here committed with
            ⟨_,_,held⟩ | ⟨x,stored,state,rfl,_⟩ | ⟨old,x,_,_,rfl,row,state⟩
          · exact nobody j _ here held
          · have late := unstarted x stored
            simp [state] at late
          · have late := unstarted x row
            simp [state] at late
        · exact nobody j thread found
      · simpa [unissued_entry other] using zero
    · rw [idle]
      exact ⟨nobody,zero⟩

private theorem sign_holds {e transaction : String} {env : RatifyOs.Execution.AuthorizationEnvelope} {p : Pool}
    (disciplined : Disciplined web3 c p) {i : ℕ}
    {next : Except String (Op.sign e transaction env).Ans → Program Op Op.Ans String Unit} {history : Log}
    (here : p.threads i = some ⟨.perform (.sign e transaction env) next,history⟩) :
    HasEnvelope e ⟨.perform (.sign e transaction env) next,history⟩ := by
  obtain ⟨patch,x,request,evidence,references,rest,newest⟩ := disciplined.allowed here
  exact .inr ⟨_,patch,x,request,evidence,references,env,rest,newest⟩

/-- How a call comes to have an envelope: it was just issued, or it already had it. -/
private theorem envelope_cases {e : String} {op : Op} {answer : Except String op.Ans} {history : Log}
    {program : Program Op Op.Ans String Unit} (before : Program Op Op.Ans String Unit) (has : HasEnvelope e ⟨program,⟨op,answer⟩ :: history⟩) :
    signs e ⟨op,answer⟩ = false ∧ (issues e ⟨op,answer⟩ = true ∨ HasEnvelope e ⟨before,history⟩) := by
  rcases has with ⟨request,evidence,references,env,rest,newest⟩ |
    ⟨states,patch,x,request,evidence,references,env,rest,newest⟩
  · obtain ⟨entry,_⟩ := List.cons.inj newest
    rw [entry]
    exact ⟨rfl,.inl (by simp [issues])⟩
  · obtain ⟨entry,older⟩ := List.cons.inj newest
    rw [entry]
    exact ⟨rfl,.inr (.inl ⟨request,evidence,references,env,rest,older⟩)⟩

private theorem envelope_handover {e : String} {p : Pool} (disciplined : Disciplined web3 c p)
    (single : Single e p) {i : ℕ} {choice : Choice} {op : Op}
    {next : Except String op.Ans → Program Op Op.Ans String Unit} {history : Log}
    (here : p.threads i = some ⟨.perform op next,history⟩) :
    System.Handover (HasEnvelope e) (signs e) p i ⟨.perform op next,history⟩
      ⟨next (handle choice op p.state).1,⟨op,(handle choice op p.state).1⟩ :: history⟩
      ⟨op,(handle choice op p.state).1⟩ := by
  generalize answered : (handle choice op p.state).1 = answer
  by_cases has : HasEnvelope e ⟨next answer,⟨op,answer⟩ :: history⟩
  · obtain ⟨unsigned,issued | held⟩ := envelope_cases (.perform op next) has
    · have issue : op.Issues e := by
        by_contra other
        simp [unissued_entry other] at issued
      have before := single.unissued (single.exclusive.spent i _ here (issue_committed issue next history))
      exact .take unsigned before.2 fun j t _ there => before.1 j t there
    · exact .keep unsigned fun _ => held
  · by_cases signed : signs e ⟨op,answer⟩ = true
    · refine .use ?_ has
      cases op with
      | sign id transaction env =>
        have same : id = e := by simpa [signs] using signed
        subst same
        exact sign_holds disciplined here
      | _ => simp [signs] at signed
    · exact .keep (Bool.not_eq_true _ ▸ signed) fun held => absurd held has

private theorem unissued_step {e : String} {p : Pool} (event : Event Call Choice)
    (disciplined : Disciplined web3 c p) (single : Single e p)
    (zero : ((system web3 c).step p event).trace.countP (issues e) = 0) :
    System.Unused (HasEnvelope e) (signs e) ((system web3 c).step p event) := by
  cases event with
  | start call =>
    obtain ⟨nobody,never⟩ := single.unissued zero
    refine ⟨fun i thread found => ?_,never⟩
    by_cases same : i = p.count
    · subst same
      simp only [System.step,Function.update_self,Option.some.injEq] at found
      subst found
      simp [HasEnvelope]
    · simp only [System.step,Function.update_of_ne same] at found
      exact nobody i thread found
  | ambient choice => exact single.unissued zero
  | crash => exact ⟨fun i thread found => by simp [System.step] at found,(single.unissued zero).2⟩
  | perform i choice =>
    rcases (system web3 c).perform_cases p i choice with ⟨op,next,history,here⟩ | idle
    · rw [(system web3 c).perform_eq here] at zero ⊢
      generalize ((system web3 c).handle choice op p.state).1 = answer at zero ⊢
      rw [List.countP_eq_zero] at zero
      have older : p.trace.countP (issues e) = 0 :=
        List.countP_eq_zero.mpr fun entry inside => zero entry (List.mem_cons_of_mem _ inside)
      have fresh : issues e ⟨op,answer⟩ = false := Bool.not_eq_true _ ▸ zero _ List.mem_cons_self
      obtain ⟨nobody,never⟩ := single.unissued older
      refine ⟨fun j thread found has => ?_,?_⟩
      · rcases System.thread_updated found with ⟨rfl,rfl⟩ | ⟨_,found⟩
        · obtain ⟨_,issued | held⟩ := envelope_cases (.perform op next) has
          · simp [fresh] at issued
          · exact nobody j _ here held
        · exact nobody j thread found has
      · have unsigned : signs e ⟨op,answer⟩ = false := by
          by_contra signed
          cases op with
          | sign id transaction env =>
            have same : id = e := by simpa [signs] using signed
            subst same
            exact nobody i _ here (sign_holds disciplined here)
          | _ => simp [signs] at signed
        simp [unsigned,never]
    · rw [idle] at zero ⊢
      exact single.unissued zero

private theorem single_step {e : String} {p : Pool} (event : Event Call Choice)
    (disciplined : Disciplined web3 c p) (alone : Alone e p event) (single : Single e p) :
    Single e ((system web3 c).step p event) := by
  refine ⟨?_,unstarted_step event disciplined single,?_,unissued_step event disciplined single⟩
  · refine (system web3 c).exclusive_step p event single.exclusive start_quiet ?_
    intro i choice op next history performed here
    subst performed
    exact commitment_handover disciplined single alone here
  · refine (system web3 c).exclusive_step p event single.envelope ?_ ?_
    · intro call
      simp [HasEnvelope]
    · intro i choice op next history _ here
      exact envelope_handover disciplined single here

private theorem single_initial (e : String) (clock : ℤ) : Single e (Config.initial (State.initial clock)) where
  exclusive := (System.unused_initial _).exclusive
  unstarted _ := System.unused_initial _
  envelope := (System.unused_initial _).exclusive
  unissued _ := System.unused_initial _

/-- Every persisted signature was checked against the newest answer of the signer. -/
private theorem persist_answered {e : String} {p : Pool} (disciplined : Disciplined web3 c p) {i : ℕ}
    {authorizationId : Option String} {messageHash signature : String} {limit : ℕ}
    {next : Except String Execution → Program Op Op.Ans String Unit} {history : Log}
    (here : p.threads i = some ⟨.perform (.transition e [.signing]
      (persistPatch authorizationId messageHash signature limit)) next,history⟩) :
    ∃ response rest, history = response :: rest ∧ (signs e response ∨ looksUp e response) := by
  generalize states : [TradeState.signing] = from_states at here
  generalize patched : persistPatch authorizationId messageHash signature limit = patch at here
  have move : Move web3 c history e from_states patch := disciplined.allowed here
  cases move with
  | persist responded checked attached nonempty approved =>
    refine ⟨_,_,responded,?_⟩
    cases checked with
    | signed same reported => exact .inl (by simp [signs])
    | recovered same reported => exact .inr (by simp [looksUp])
  | observe read known seen =>
    have hashed := congrArg Patch.messageHash patched
    simp [persistPatch] at hashed
  | _ => simp [persistPatch] at patched

end Authorize

/-- In every run in which a call that re-enters `signing` is alone, an execution is
authorized at most once and the signer is asked to sign for it at most once. -/
theorem authorized_at_most_once (web3 : Signer.Web3) (c : Deployment) (clock : ℤ)
    (events : List (Event Call Choice)) (e : String)
    (alone : (system web3 c).Meets (Alone e) (Config.initial (State.initial clock)) events) :
    AuthorizedOnce e ((system web3 c).run (Config.initial (State.initial clock)) events) := by
  obtain ⟨disciplined,single⟩ := (system web3 c).run_induction (program_safe web3 c) (Alone e) (Single e)
    (fun p event disciplined alone single => single_step event disciplined alone single)
    (System.obeys_initial _) (single_initial e clock) events alone
  refine ⟨single.exclusive.once,single.envelope.once,?_⟩
  intro i authorizationId messageHash signature limit next history here
  exact persist_answered disciplined here

/-- The step does not read the row in `signing`. -/
def unread (e : String) (p : Pool) : Event Call Choice → Bool
  | .perform i _ =>
    match p.threads i with
    | some ⟨.perform (.getExecution id) _,_⟩ =>
      id ≠ e ∨ (p.state.row e).all fun x => x.state ≠ .signing
    | _ => true
  | _ => true

theorem alone_of_unread (e : String) (p : Pool) (event : Event Call Choice) (quiet : unread e p event = true) :
    Alone e p event := by
  intro i choice next history x performed here found state
  subst performed
  simp [unread,here,found,state] at quiet

open Sample in
/-- A submission whose signing response was lost. -/
theorem authorized_at_most_once_timeout :
    AuthorizedOnce "e" ((system Signer.Sample.web3 deployment).run (Config.initial (State.initial 0))
      (approval ++ [.start (.submit "e")] ++ steps 2 11)) := by
  have alone : (system Signer.Sample.web3 deployment).Meets (fun p event => unread "e" p event = true)
      (Config.initial (State.initial 0)) (approval ++ [.start (.submit "e")] ++ steps 2 11) := by decide +kernel
  exact authorized_at_most_once _ _ _ _ _ ((system _ _).meets_mono (alone_of_unread "e") alone)

open Sample in
/-- The process dies between the issuer's answer and the write of the authorization id;
the restarted process submits the row it finds in `signing` and authorizes again. -/
theorem authorized_twice_after_crash :
    ¬AuthorizedOnce "e" ((system Signer.Sample.web3 deployment).run (Config.initial (State.initial 0))
      (approval ++ [.start (.submit "e")] ++ steps 2 9 ++ [.crash,.start (.submit "e")] ++ steps 3 9)) := by
  intro once
  have twice : ((system Signer.Sample.web3 deployment).run (Config.initial (State.initial 0))
      (approval ++ [.start (.submit "e")] ++ steps 2 9 ++ [.crash,.start (.submit "e")] ++ steps 3 9)).trace.countP
        (issues "e") = 2 := by decide +kernel
  have atMostOnce := once.1
  omega

end RatifyOs.Trading
