import RatifyOs.Execution.ApprovalMatch
import RatifyOs.Trading.Approved

/-! The two readings of an approval: what `execute` asks an operator to approve, and what
`submit` consumes. -/
namespace RatifyOs.Trading
open Async Data RatifyOs.Execution
open Async.Program hiding pure throw

section Rules
variable (web3 : Signer.Web3) (c : Deployment)

/-- The engine has been asked for this approval. -/
def Asked (h : Log) (a : String) : Prop :=
  ∃ b proposerId expiresAt, ⟨.approvalRequest a b proposerId expiresAt,.ok ()⟩ ∈ h

/-- What is approved is read at `execute`, what is consumed at `submit`. -/
def binds (h : Log) : Op → Prop
  | .approvalRequest a b _ _ => ∃ new state x q request fresh, ⟨.create new state,.ok x⟩ ∈ h ∧ x.id = a ∧
      ⟨.getQuote new.quoteId,.ok (some q)⟩ ∈ h ∧ q.request = some request ∧ ⟨.simulate request,.ok (.evidence fresh)⟩ ∈ h ∧
      b = binding c q request fresh
  | .transition e _ patch => ∀ a, patch.approvalId = some a → a = e ∧ (c.approvalEngine = true → Asked h a)
  | .approvalConsume a b => c.approvalEngine = true ∧ ∃ e x q request kept,
      ⟨.getExecution e,.ok (some x)⟩ ∈ h ∧ x.approvalId = some a ∧ ⟨.getQuote x.quoteId,.ok (some q)⟩ ∈ h ∧
      q.request = some request ∧ q.evidence = some kept ∧ b = binding c q request kept
  | _ => True

attribute [local simp] binds

def Binds {α : Type} (p : Trade α) (h : Log) : Prop := p.wp (binds c) (fun _ _ => True) (fun _ _ => True) h

private theorem Binds.then {α β : Type} {p : Trade α} {f : α → Trade β} {h : Log} (first : Binds c p h)
    (rest : ∀ value h, Binds c (f value) h) : Binds c (p >>= f) h := by
  rw [Binds,wp_bind]
  exact wp_mono p first (fun value h _ => rest value h) fun _ _ _ => trivial

private theorem refreshApproval_binds (id : String) (operator : Option String) (h : Log) :
    Binds c (refreshApproval c id operator) h := by
  simp [Binds,refreshApproval,require]

private theorem approve_binds (id operator : String) (input : Option DecisionInput) (h : Log) :
    Binds c (approve c id operator input) h := by
  have refresh := refreshApproval_binds c id (some operator)
  unfold Binds at refresh
  simp only [Binds,approve,require,wp_bind,wp_call,wp_ofOption,wp_reject,binds,implies_true,and_true,true_and]
  intro _ x _ _ _
  cases input <;> cases present x.approvalId <;> simp [refresh]

private theorem deny_binds (id operator : String) (input : Option DecisionInput) (h : Log) :
    Binds c (deny c id operator input) h := by
  have refresh := refreshApproval_binds c id (some operator)
  unfold Binds at refresh
  simp [Binds,deny,require,refresh]

private theorem executeLive_binds {quoteId : String} {q : Quote} {evidence : Option SimulationEvidence} {h : Log}
    (o : ExecuteOptions) (read : ⟨.getQuote quoteId,.ok (some q)⟩ ∈ h)
    (simulated : ∀ request fresh, q.request = some request → evidence = some fresh →
      ⟨.simulate request,.ok (.evidence fresh)⟩ ∈ h) : Binds c (executeLive c quoteId q evidence o) h := by
  simp only [Binds,executeLive,wp_bind,wp_ofOption,wp_reject,wp_call,binds,implies_true,and_true,true_and]
  intro request asked fresh got _ height _
  have fetched := simulated request fresh asked got
  have created : ∀ (later : Log), h ⊆ later → ∀ new state x, new.quoteId = quoteId →
      Binds c (if c.policy.approvalRequired = true then do
        onlyIf (c.approvalEngine = true) (call (Op.approvalRequest x.id (binding c q request fresh) o.actor q.expiresAt))
        call (Op.transition x.id [.awaitingApproval] { approvalId := some x.id })
      else call (Op.transition x.id [.awaitingApproval] { state := some .approved }))
        (⟨.create new state,.ok x⟩ :: later) := by
    intro later grown new state x quoted
    simp only [Binds,wp_ite,wp_bind,wp_onlyIf,wp_call,binds,implies_true,and_true]
    refine ⟨fun _ => ⟨fun on => ⟨?_,fun done a same => ?_⟩,fun off a same => ?_⟩,fun _ => by simp⟩
    · refine ⟨new,state,x,q,request,fresh,by simp,rfl,?_,asked,?_,rfl⟩
      · rw [quoted]
        simp [grown read]
      · simp [grown fetched]
    · cases same
      exact ⟨rfl,fun _ => ⟨_,_,_,List.mem_cons_self⟩⟩
    · cases same
      exact ⟨rfl,fun on => absurd on off⟩
  have optional : ∀ (there : Bool) (op : Op) (later : Log), h ⊆ later → (∀ h, binds c h op) →
      (optionally there (call op) : Trade (Option op.Ans)).wp (binds c) (fun _ after => h ⊆ after) (fun _ _ => True)
        later := by
    intro there op later grown allowed
    cases there with
    | false => exact grown
    | true =>
      simp only [optionally,if_true,wp_bind,wp_call,wp_pure]
      exact ⟨allowed _,fun value => List.subset_cons_of_subset _ grown,fun _ => trivial⟩
  refine wp_mono _ (optional c.risk (Op.assess q request fresh) _ (List.subset_cons_self _ _) fun _ => trivial) ?_
    fun _ _ _ => trivial
  intro risk later grown
  rw [wp_bind,wp_reject]
  refine ⟨fun _ => trivial,fun _ => ?_⟩
  rw [wp_bind]
  refine wp_mono _ (optional c.reservations (Op.reserve q.quoteHash q.policyHash request.messageHash) later grown
    fun _ => trivial) ?_ fun _ _ _ => trivial
  intro reservationId later grown
  rw [wp_bind,wp_call]
  exact ⟨trivial,fun x => created later grown _ _ x rfl,fun _ => trivial⟩

private theorem execute_binds (quoteId : String) (o : ExecuteOptions) (h : Log) : Binds c (execute c quoteId o) h := by
  refine Binds.then c (by simp [Binds]) fun old h => ?_
  cases old with
  | some old => simp [Binds]
  | none =>
    simp only [Binds,executeNew,wp_bind,wp_call,wp_ofOption,wp_reject,binds,implies_true,and_true,true_and]
    intro found q there now _ _
    subst there
    have done : ∀ (evidence : Option SimulationEvidence) (h : Log), ⟨.getQuote quoteId,.ok (some q)⟩ ∈ h →
        (∀ request fresh, q.request = some request → evidence = some fresh →
          ⟨.simulate request,.ok (.evidence fresh)⟩ ∈ h) →
        Binds c (if o.dryRun.getD true = true then
          call (Op.create (newExecution quoteId q o true (evidence.map (·.hash))) .dryRun)
        else executeLive c quoteId q evidence o) h := by
      intro evidence h read simulated
      rw [Binds,wp_ite]
      exact ⟨fun _ => by simp,fun _ => executeLive_binds c o read simulated⟩
    unfold Binds at done
    unfold resimulate
    cases asked : q.request with
    | some request =>
      simp only [wp_bind,wp_call,binds,implies_true,and_true,true_and]
      intro got
      cases got with
      | verdict success => simp
      | evidence fresh =>
        refine done (some fresh) _ (by simp) ?_
        intro request' fresh' same got
        rw [asked,Option.some.injEq] at same
        rw [Option.some.injEq] at got
        subst same got
        exact List.mem_cons_self
    | none =>
      simp only [wp_bind,wp_call,binds,implies_true,and_true,true_and]
      intro got
      have bare := done q.evidence
      rcases got with e | (_ | _)
      · simp
      · simp
      · refine done q.evidence _ (by simp) ?_
        intro request fresh same
        rw [asked] at same
        cases same

private theorem expire_binds (id : String) (states : List TradeState) (h : Log) : Binds c (expire c id states) h := by
  simp only [Binds,expire,wp_bind,wp_call,binds,implies_true,and_true,true_and]
  intro found
  cases found.bind fun x => present x.reservationId <;> simp

private theorem submitApproved_binds (id : String) (x : Execution) (q : Quote) (request : SimulationRequest)
    (evidence : SimulationEvidence) (h : Log) (row : ⟨.getExecution id,.ok (some x)⟩ ∈ h)
    (read : ⟨.getQuote x.quoteId,.ok (some q)⟩ ∈ h) (asked : q.request = some request) (kept : q.evidence = some evidence) :
    Binds c (submitApproved web3 c id x q request evidence) h := by
  have abandon (error : String) (h : Log) : Binds c (abandonSubmission id error) h := by
    simp [Binds,abandonSubmission,require]
  have valid : (validReservation c x).wp (binds c) (fun _ after => h ⊆ after) (fun _ _ => True) h := by
    unfold validReservation
    cases present x.reservationId with
    | none => simp
    | some reservationId => simp
  have signing (approvalId : String) (x : Execution) (h : Log) :
      Binds c (submitSigning web3 c id q request evidence approvalId x) h := by
    simp only [Binds,submitSigning,wp_bind,wp_call,wp_ofExcept,binds,implies_true,and_true,true_and]
    intro env
    refine ⟨by simp,?_⟩
    intro _ signed signature _
    refine ⟨by simp,?_⟩
    intro persisted
    cases signed.broadcast <;> simp
  unfold submitApproved Binds
  rw [wp_bind]
  refine wp_mono _ valid (fun valid after grown => ?_) fun _ _ _ => trivial
  simp only [wp_bind,wp_reject,wp_ofOption,wp_call,wp_onlyIf,implies_true,and_true,true_and]
  intro _ approvalId found
  refine ⟨trivial,fun approval => ?_⟩
  have last : ∀ h : Log, Binds c (do
      let x ← (if x.state = .approved then call (Op.transition id [.approved] { state := some .signing }) else pure x)
      tryCatch (submitSigning web3 c id q request evidence approvalId x) (abandonSubmission id)) h := by
    intro h
    refine Binds.then c (by simp [Binds]) fun x h => ?_
    exact wp_tryCatch_of _ _ (signing approvalId x h) fun error h _ => abandon error h
  unfold Binds at last
  simp only [wp_bind] at last
  refine ⟨fun _ => ⟨⟨?_,id,x,q,request,evidence,?_,?_,?_,asked,kept,rfl⟩,fun _ => last _⟩,fun _ => last _⟩
  · by_contra off
    simp [off] at found
  · simp [grown row]
  · have there : present x.approvalId = some approvalId := by
      split at found
      · exact found
      · cases found
    exact (present_eq_some.mp there).1
  · simp [grown read]

private theorem submit_binds (id : String) (h : Log) : Binds c (submit web3 c id) h := by
  simp only [Binds,submit,require,wp_bind,wp_call,wp_ofOption,wp_reject,wp_ite,binds,true_and,implies_true,and_true]
  intro row x found _ stored exact_ parts _ now _ height
  subst found
  refine ⟨fun _ => ?_,fun _ => ?_⟩
  · exact wp_mono _ (expire_binds c id [x.state] _) (fun _ _ _ => by simp) fun _ _ _ => trivial
  · obtain ⟨q,request,kept⟩ := exact_
    simp only [exactQuote,Option.bind_eq_bind,Option.bind_eq_some_iff,Option.pure_def,Option.some.injEq,Prod.mk.injEq] at parts
    obtain ⟨_,rfl,_,asked,_,has,rfl,rfl,rfl⟩ := parts
    exact submitApproved_binds web3 c id x _ _ _ _ (by simp) (by simp) asked has

private theorem recoverSigning_binds (row : Execution) (h : Log) : Binds c (recoverSigning web3 c row) h := by
  simp only [Binds,recoverSigning,wp_bind,wp_call,wp_ofOption,binds,true_and,implies_true,and_true]
  intro stored exact_ _
  cases present row.authorizationId with
  | none => exact submit_binds web3 c row.id _
  | some authorizationId =>
    simp only [wp_bind,wp_reject,wp_call,binds,true_and,implies_true,and_true]
    intro _ signed
    cases signed.state with
    | expired =>
      simp only [wp_bind]
      exact wp_mono _ (expire_binds c row.id [.signing] _) (fun _ _ _ => by simp) fun _ _ _ => trivial
    | notFound => simp
    | other => simp
    | signed => simp [recoverSigned]

private theorem reconcile_binds (id : String) (h : Log) : Binds c (reconcile c id) h := by
  simp only [Binds,reconcile,require,wp_bind,wp_call,wp_ofOption,binds,true_and,implies_true,and_true]
  intro row x found signature _ status
  cases status with
  | some status => simp
  | none =>
    have decide (past : Bool) (h : Log) : Binds c
        (if past = true then dropExecution c id x
        else if x.state = .reconciliationRequired then return x
        else call (Op.transition id [x.state] { state := some .reconciliationRequired })) h := by
      rw [Binds,wp_ite]
      refine ⟨fun _ => ?_,fun _ => by simp⟩
      unfold dropExecution
      cases present x.reservationId <;> simp
    unfold Binds at decide
    unfold pastValidity
    cases x.lastValidBlockHeight with
    | none => exact decide false _
    | some limit =>
      simp only [wp_bind,wp_call,wp_pure,binds,true_and,implies_true,and_true]
      exact fun height => decide _ _

private theorem recoverRow_binds (row : Execution) (totals : Recovery) (h : Log) :
    Binds c (recoverRow web3 c row totals) h := by
  refine wp_tryCatch_of _ _ (?_ : Binds c _ h) fun _ _ _ => by simp
  rw [Binds,wp_ite]
  refine ⟨fun _ => ?_,fun _ => ?_⟩
  · exact Binds.then c (recoverSigning_binds web3 c row h) fun _ _ => by simp [Binds]
  · rw [wp_ite]
    refine ⟨fun _ => by simp [recover,require],fun _ => ?_⟩
    exact Binds.then c (reconcile_binds c row.id h) fun _ _ => by simp [Binds]

private theorem recoverRows_binds (rows : List Execution) (totals : Recovery) (h : Log) :
    Binds c (recoverRows web3 c rows totals) h := by
  induction rows generalizing totals h with
  | nil => simp [Binds,recoverRows]
  | cons row rows ih => exact Binds.then c (recoverRow_binds web3 c row totals h) fun totals after => ih totals after

theorem program_binds (call : Call) : ((system web3 c).program call).wp (binds c)
    (fun _ _ => True) (fun _ _ => True) [] := by
  have discarded : ∀ {α : Type} {p : Trade α}, Binds c p [] → Binds c (discard p) [] :=
    fun binds => Binds.then c binds fun _ _ => by simp [Binds]
  cases call with
  | execute quoteId o => exact discarded (execute_binds c quoteId o [])
  | approve id operator input => exact discarded (approve_binds c id operator input [])
  | deny id operator input => exact discarded (deny_binds c id operator input [])
  | refreshApproval id operator => exact discarded (refreshApproval_binds c id operator [])
  | submit id => exact discarded (submit_binds web3 c id [])
  | recover id => exact discarded (by simp [Binds,recover,require])
  | recoverSigning id =>
    refine discarded ?_
    simp only [Binds,require,wp_bind,wp_call,wp_ofOption,binds,true_and,implies_true,and_true]
    exact fun read row found => recoverSigning_binds web3 c row _
  | reconcile id => exact discarded (reconcile_binds c id [])
  | recoverAndReconcile limit =>
    refine discarded ?_
    simp only [Binds,recoverAndReconcile,wp_bind,wp_call,binds,true_and,implies_true,and_true]
    exact fun all => recoverRows_binds web3 c _ _ _

end Rules

section Runs
variable {web3 : Signer.Web3} {c : Deployment}

structure Rooted (c : Deployment) (p : Pool) : Prop where
  quotes : ∀ id q, ⟨.getQuote id,.ok (some q)⟩ ∈ p.trace → p.state.store.getQuote id = some q
  made : ∀ new state x, ⟨.create new state,.ok x⟩ ∈ p.trace → ∃ y, p.state.row x.id = some y ∧ y.quoteId = new.quoteId
  known : ∀ e x, ⟨.getExecution e,.ok (some x)⟩ ∈ p.trace → ∃ y, p.state.row e = some y ∧ y.quoteId = x.quoteId
  asks : ∀ a b proposerId expiresAt answer, ⟨.approvalRequest a b proposerId expiresAt,answer⟩ ∈ p.trace →
    ∃ y q request fresh, p.state.row a = some y ∧ p.state.store.getQuote y.quoteId = some q ∧ q.request = some request ∧
      ⟨.simulate request,.ok (.evidence fresh)⟩ ∈ p.trace ∧ b = binding c q request fresh
  rows : ∀ e x a, p.state.row e = some x → x.approvalId = some a → a = e ∧ (c.approvalEngine = true → Asked p.trace a)
  reads : ∀ e x a, ⟨.getExecution e,.ok (some x)⟩ ∈ p.trace → x.approvalId = some a →
    a = e ∧ (c.approvalEngine = true → Asked p.trace a)

private theorem rooted_initial (clock : ℤ) : Rooted c (Config.initial (State.initial clock)) where
  quotes id q member := by simp [Config.initial] at member
  made new state x member := by simp [Config.initial] at member
  known e x member := by simp [Config.initial] at member
  asks a b proposerId expiresAt answer member := by simp [Config.initial] at member
  rows e x a found := by simp [Config.initial,State.initial,State.row,ExecutionStore.get,ExecutionStore.empty] at found
  reads e x a member := by simp [Config.initial] at member

theorem Asked.mono {h h' : Log} {a : String} (asked : Asked h a) (grown : h ⊆ h') : Asked h' a := by
  obtain ⟨b,proposerId,expiresAt,member⟩ := asked
  exact ⟨b,proposerId,expiresAt,grown member⟩

private theorem created_row {choice : Choice} {new : NewExecution} {state : TradeState} {s : State} {x : Execution}
    (returned : (handle choice (.create new state) s).1 = .ok x) :
    (handle choice (.create new state) s).2.row x.id = some x ∧ x.quoteId = new.quoteId := by
  rcases s.store.create_cases new state choice.id s.clock with ⟨error,refused⟩ | ⟨executions,inserted,created⟩
  · simp [handle,refused] at returned
  · simp only [handle,created,Except.ok.injEq] at returned ⊢
    subst returned
    refine ⟨?_,rfl⟩
    change executions.find? _ = _
    rw [Table.find?_insert? inserted,if_pos rfl]

private theorem row_keeps {e : String} {choice : Choice} {op : Op} {s : State} {quoteId : String}
    (found : ∃ y, s.row e = some y ∧ y.quoteId = quoteId) :
    ∃ z, (handle choice op s).2.row e = some z ∧ z.quoteId = quoteId := by
  obtain ⟨y,found,quoted⟩ := found
  cases handle_row e choice op s with
  | same row => exact ⟨y,row.trans found,quoted⟩
  | created absent row => simp [absent] at found
  | moved there expected row =>
    cases Option.some.inj (there.symm.trans found)
    exact ⟨_,row,quoted⟩

section Perform
variable {p : Pool} {i : ℕ} {op : Op} {next : Except String op.Ans → Trade Unit} {history : Log} {choice : Choice}
  (obeys : System.Obeys (binds c) (fun _ => True) p) (rooted : Rooted c p)
  (here : p.threads i = some ⟨.perform op next,history⟩)
include obeys rooted here

private theorem rows_perform {e a : String} {x : Execution} (found : (handle choice op p.state).2.row e = some x)
    (own : x.approvalId = some a) : a = e ∧ (c.approvalEngine = true → Asked p.trace a) := by
  have allowed : binds c history op := obeys.allowed here
  cases handle_row e choice op p.state with
  | same row => exact rooted.rows e x a (row.symm.trans found) own
  | created absent row =>
    cases Option.some.inj (row.symm.trans found)
    cases own
  | moved there expected row =>
    rename_i states patch old
    cases Option.some.inj (row.symm.trans found)
    have after : patch.approvalId.or old.approvalId = some a := own
    cases asks : patch.approvalId with
    | none =>
      rw [asks] at after
      exact rooted.rows e old a there after
    | some b =>
      rw [asks] at after
      cases Option.some.inj after
      obtain ⟨named,request⟩ := allowed a asks
      exact ⟨named,fun on => (request on).mono (obeys.recorded here)⟩

private theorem asks_perform {a : String} {b : BoundTransaction} {proposerId : String} {expiresAt : ℤ}
    (asking : op = .approvalRequest a b proposerId expiresAt) :
    ∃ y q request fresh, p.state.row a = some y ∧ p.state.store.getQuote y.quoteId = some q ∧ q.request = some request ∧
      ⟨.simulate request,.ok (.evidence fresh)⟩ ∈ p.trace ∧ b = binding c q request fresh := by
  subst asking
  have recorded : history ⊆ p.trace := obeys.recorded here
  obtain ⟨new,state,x,q,request,fresh,created,rfl,read,asked,simulated,bound⟩ := obeys.allowed here
  obtain ⟨y,row,quoted⟩ := rooted.made new state x (recorded created)
  refine ⟨y,q,request,fresh,row,?_,asked,recorded simulated,bound⟩
  rw [quoted]
  exact rooted.quotes new.quoteId q (recorded read)

end Perform

private theorem rooted_perform {p : Pool} {i : ℕ} {op : Op} {next : Except String op.Ans → Trade Unit} {history : Log}
    {choice : Choice} (obeys : System.Obeys (binds c) (fun _ => True) p) (rooted : Rooted c p)
    (here : p.threads i = some ⟨.perform op next,history⟩) : Rooted c ((system web3 c).step p (.perform i choice)) := by
  have asking : ∀ a b proposerId expiresAt, op = .approvalRequest a b proposerId expiresAt → _ :=
    fun a b proposerId expiresAt => asks_perform obeys rooted here
  have stays : ∀ id q, p.state.store.getQuote id = some q → (handle choice op p.state).2.store.getQuote id = some q :=
    fun id q stored => (handle_quote choice op p.state id).trans stored
  have rows : ∀ e x a, (handle choice op p.state).2.row e = some x → x.approvalId = some a → _ :=
    fun e x a => rows_perform obeys rooted here
  rw [(system web3 c).perform_eq here]
  refine ⟨?_,?_,?_,?_,?_,?_⟩
  · intro id q member
    obtain entry | before := List.mem_cons.mp member
    · obtain ⟨rfl,answered⟩ := Sigma.mk.inj entry
      exact Except.ok.inj (eq_of_heq answered).symm
    · exact stays id q (rooted.quotes id q before)
  · intro new state x member
    obtain entry | before := List.mem_cons.mp member
    · obtain ⟨rfl,answered⟩ := Sigma.mk.inj entry
      obtain ⟨found,quoted⟩ := created_row (eq_of_heq answered).symm
      exact ⟨x,found,quoted⟩
    · exact row_keeps (rooted.made new state x before)
  · intro e x member
    obtain entry | before := List.mem_cons.mp member
    · obtain ⟨rfl,answered⟩ := Sigma.mk.inj entry
      exact ⟨x,Except.ok.inj (eq_of_heq answered).symm,rfl⟩
    · exact row_keeps (rooted.known e x before)
  · intro a b proposerId expiresAt answer member
    have before : ∃ y q request fresh, p.state.row a = some y ∧ p.state.store.getQuote y.quoteId = some q ∧
        q.request = some request ∧ ⟨.simulate request,.ok (.evidence fresh)⟩ ∈ p.trace ∧ b = binding c q request fresh := by
      obtain entry | before := List.mem_cons.mp member
      · obtain ⟨rfl,answered⟩ := Sigma.mk.inj entry
        exact asking a b proposerId expiresAt rfl
      · exact rooted.asks a b proposerId expiresAt answer before
    obtain ⟨y,q,request,fresh,row,stored,asked,simulated,bound⟩ := before
    obtain ⟨z,row',quoted⟩ : ∃ z, (handle choice op p.state).2.row a = some z ∧ z.quoteId = y.quoteId :=
      row_keeps ⟨y,row,rfl⟩
    refine ⟨z,q,request,fresh,row',?_,asked,List.mem_cons_of_mem _ simulated,bound⟩
    rw [quoted]
    exact stays y.quoteId q stored
  · intro e x a found own
    obtain ⟨named,asked⟩ := rows e x a found own
    exact ⟨named,fun on => (asked on).mono (List.subset_cons_self _ _)⟩
  · intro e x a member own
    have before : a = e ∧ (c.approvalEngine = true → Asked p.trace a) := by
      obtain entry | before := List.mem_cons.mp member
      · obtain ⟨rfl,answered⟩ := Sigma.mk.inj entry
        exact rooted.rows e x a (Except.ok.inj (eq_of_heq answered).symm) own
      · exact rooted.reads e x a before own
    exact ⟨before.1,fun on => (before.2 on).mono (List.subset_cons_self _ _)⟩

private theorem rooted_step (p : Pool) (event : Event Call Choice) (obeys : System.Obeys (binds c) (fun _ => True) p)
    (rooted : Rooted c p) : Rooted c ((system web3 c).step p event) := by
  cases event with
  | start call => exact ⟨rooted.quotes,rooted.made,rooted.known,rooted.asks,rooted.rows,rooted.reads⟩
  | crash => exact ⟨rooted.quotes,rooted.made,rooted.known,rooted.asks,rooted.rows,rooted.reads⟩
  | ambient choice =>
    have stays : ∀ id q, p.state.store.getQuote id = some q → (elapse choice p.state).store.getQuote id = some q :=
      fun id q stored => elapse_quote choice p.state stored
    have row : ∀ e, (elapse choice p.state).row e = p.state.row e := by
      intro e
      unfold elapse State.row
      dsimp only
      split
      · split <;> rfl
      · rfl
    refine ⟨fun id q member => stays id q (rooted.quotes id q member),?_,?_,?_,?_,rooted.reads⟩
    · intro new state x member
      obtain ⟨y,found,same⟩ := rooted.made new state x member
      exact ⟨y,(row x.id).trans found,same⟩
    · intro e x member
      obtain ⟨y,found,same⟩ := rooted.known e x member
      exact ⟨y,(row e).trans found,same⟩
    · intro a b proposerId expiresAt answer member
      obtain ⟨y,q,request,fresh,found,stored,rest⟩ := rooted.asks a b proposerId expiresAt answer member
      exact ⟨y,q,request,fresh,(row a).trans found,stays _ _ stored,rest⟩
    · exact fun e x a found own => rooted.rows e x a ((row e).symm.trans found) own
  | perform i choice =>
    rcases (system web3 c).perform_cases p i choice with ⟨op,next,history,here⟩ | idle
    · exact rooted_perform obeys rooted here
    · rw [idle]
      exact rooted

variable (web3 c) in
private theorem run_rooted (clock : ℤ) (events : List (Event Call Choice)) :
    System.Obeys (binds c) (fun _ => True) ((system web3 c).run (Config.initial (State.initial clock)) events) ∧
      Rooted c ((system web3 c).run (Config.initial (State.initial clock)) events) := by
  apply (system web3 c).run_induction (program_binds web3 c) (fun _ _ => True)
  · exact fun p event obeys _ rooted => rooted_step p event obeys rooted
  · exact System.obeys_initial _
  · exact rooted_initial clock
  · exact (system web3 c).meets_of_forall (fun _ _ => trivial) _ _

/-- Two simulations that cannot be told apart by what an operator approves. -/
def Agree (fresh kept : SimulationEvidence) : Prop :=
  fresh.hash = kept.hash ∧ fresh.slot = kept.slot ∧ fresh.blockhash = kept.blockhash

/-- What `execute` hands to the approval engine. -/
def approvalInput (a : String) (b : BoundTransaction) (proposerId : String) (expiresAt : ℤ) : ApprovalRequestInput :=
  { b with id := a, type := .sign, proposerId, expiresAt, displayImpact := none }

private theorem slot_injective {m n : ℤ} (same : toString m = toString n) : m = n := by
  apply Json.number_injective
  unfold Json.number
  rw [same]

private theorem agree_of_keys {q : Quote} {request : SimulationRequest} {fresh kept : SimulationEvidence}
    {engine : ApprovalConfig} (same : canonicalSerialize (ApprovalEngine.boundKeys engine (binding c q request kept)) =
      canonicalSerialize (ApprovalEngine.boundKeys engine (binding c q request fresh))) : Agree fresh kept := by
  obtain ⟨hash,slot,blockhash⟩ := evidence_of_serialize_eq same
  exact ⟨hash.symm,(slot_injective slot).symm,blockhash.symm⟩

private theorem binding_agrees {q : Quote} {request : SimulationRequest} {fresh kept : SimulationEvidence}
    (agree : Agree fresh kept) : binding c q request kept = binding c q request fresh := by
  obtain ⟨hash,slot,blockhash⟩ := agree
  unfold binding
  rw [hash,slot,blockhash]

/-- In every run: a call that is about to consume an approval has had it asked for, over
the same quote and message, and what is consumed is what was approved, field for field and
by the engine's own comparison, exactly when the simulation of `execute` agrees with the one
the quote was stored with. -/
theorem approval_consumed_iff (web3 : Signer.Web3) (c : Deployment) (clock : ℤ) (events : List (Event Call Choice)) :
    ∀ i a b' next history,
      ((system web3 c).run (Config.initial (State.initial clock)) events).threads i =
          some ⟨.perform (.approvalConsume a b') next,history⟩ →
        Asked ((system web3 c).run (Config.initial (State.initial clock)) events).trace a ∧
        ∀ b proposerId expiresAt answer, ⟨.approvalRequest a b proposerId expiresAt,answer⟩ ∈
            ((system web3 c).run (Config.initial (State.initial clock)) events).trace →
          ∃ q request fresh kept,
            (∃ x, ((system web3 c).run (Config.initial (State.initial clock)) events).state.row a = some x ∧
              ((system web3 c).run (Config.initial (State.initial clock)) events).state.store.getQuote x.quoteId = some q) ∧
            q.request = some request ∧ q.evidence = some kept ∧
            ⟨.simulate request,.ok (.evidence fresh)⟩ ∈
              ((system web3 c).run (Config.initial (State.initial clock)) events).trace ∧
            b = binding c q request fresh ∧ b' = binding c q request kept ∧
            (b' = b ↔ Agree fresh kept) ∧
            ∀ engine s, Filed engine (approvalInput a b proposerId expiresAt) s →
              ((Session.exec (ApprovalEngine.consume engine a b') s).1 = .error mismatch ↔
                Available s a ∧ ¬Agree fresh kept) := by
  obtain ⟨obeys,rooted⟩ := run_rooted web3 c clock events
  generalize (system web3 c).run (Config.initial (State.initial clock)) events = p at *
  intro i a b' next history here
  have recorded : history ⊆ p.trace := obeys.recorded here
  obtain ⟨on,e,x,q,request,kept,row,own,read,asked,has,consumed⟩ := obeys.allowed here
  obtain ⟨rfl,wanted⟩ := rooted.reads e x a (recorded row) own
  refine ⟨wanted on,fun b proposerId expiresAt answer member => ?_⟩
  obtain ⟨y,found,quoted⟩ := rooted.known a x (recorded row)
  obtain ⟨y',q',request',fresh,found',stored,asked',simulated,bound⟩ := rooted.asks a b proposerId expiresAt answer member
  cases Option.some.inj (found.symm.trans found')
  rw [quoted] at stored
  cases Option.some.inj ((rooted.quotes x.quoteId q (recorded read)).symm.trans stored)
  cases Option.some.inj (asked.symm.trans asked')
  subst consumed bound
  refine ⟨q,request,fresh,kept,⟨y,found,by rw [quoted]; exact stored⟩,asked,has,simulated,rfl,rfl,⟨?_,binding_agrees⟩,?_⟩
  · intro same
    have slot := slot_injective (congrArg BoundTransaction.simulationBlock same)
    exact ⟨(congrArg BoundTransaction.simulationHash same).symm,slot.symm,
      (congrArg BoundTransaction.simulationState same).symm⟩
  · intro engine s filed
    rw [show a = (approvalInput a (binding c q request fresh) proposerId expiresAt).id from rfl,consume_filed_iff filed]
    refine and_congr_right fun _ => not_congr ⟨agree_of_keys,fun agree => ?_⟩
    rw [binding_agrees agree]
    rfl

end Runs

namespace Sample

/-- Another simulation of the same message, a slot later. -/
def laterEvidence : SimulationEvidence := { evidence with slot := 8, hash := "0xf" }

def laterReply : (op : Op) → Except String op.Ans
  | .simulate _ => .ok (.evidence laterEvidence)
  | op => reply op

/-- A quote is executed, approved and submitted, up to the consumption of the approval. -/
def consumption (reply : (op : Op) → Except String op.Ans) : List (Event Call Choice) :=
  [.ambient { quote := some quote },.start (.execute "q" ⟨"key","actor",some false⟩)] ++ stepsWith reply 0 9 ++
    [.start (.approve "e" "operator" (some ⟨"operator",.approve,"challenge","nonce",0,none,none,none⟩))] ++
    stepsWith reply 1 5 ++ [.start (.submit "e")] ++ stepsWith reply 2 6

def consuming (reply : (op : Op) → Except String op.Ans) : Pool :=
  (system Signer.Sample.web3 deployment).run (Config.initial (State.initial 0)) (consumption reply)

/-- Whether the call stands before the consumption of what was simulated in this slot. -/
def consumes (block : String) : Option (Thread Op Op.Ans String) → Bool
  | some ⟨.perform (.approvalConsume id b) _,_⟩ => id = "e" ∧ b.simulationBlock = block
  | _ => false

/-- Whether an approval of what was simulated in this slot was asked for. -/
def asksFor (block : String) : Entry Op Op.Ans String → Bool
  | ⟨.approvalRequest id b _ _,.ok ()⟩ => id = "e" ∧ b.simulationBlock = block
  | _ => false

def simulates (evidence : SimulationEvidence) : Entry Op Op.Ans String → Bool
  | ⟨.simulate _,.ok (.evidence fresh)⟩ => fresh = evidence
  | _ => true

theorem of_consumes {block : String} {thread : Option (Thread Op Op.Ans String)} (stands : consumes block thread = true) :
    ∃ b next history, thread = some ⟨.perform (.approvalConsume "e" b) next,history⟩ ∧ b.simulationBlock = block := by
  unfold consumes at stands
  split at stands
  · obtain ⟨rfl,same⟩ := of_decide_eq_true stands
    exact ⟨_,_,_,rfl,same⟩
  · cases stands

theorem of_asksFor {block : String} {h : Log} (asked : h.any (asksFor block) = true) :
    ∃ b proposerId expiresAt, ⟨.approvalRequest "e" b proposerId expiresAt,.ok ()⟩ ∈ h ∧ b.simulationBlock = block := by
  obtain ⟨entry,member,asks⟩ := List.any_eq_true.mp asked
  unfold asksFor at asks
  split at asks
  · obtain ⟨rfl,same⟩ := of_decide_eq_true asks
    exact ⟨_,_,_,member,same⟩
  · cases asks

end Sample

open Trading.Sample in
/-- The simulation of `execute` reports what the quote was stored with. -/
theorem approval_consumed_same : ∃ b b' proposerId expiresAt,
    (∃ next history, (consuming reply).threads 2 = some ⟨.perform (.approvalConsume "e" b') next,history⟩) ∧
      ⟨.approvalRequest "e" b proposerId expiresAt,.ok ()⟩ ∈ (consuming reply).trace ∧ b' = b := by
  have run : consumes "7" ((consuming reply).threads 2) = true ∧ (consuming reply).trace.all (simulates evidence) = true ∧
      ((consuming reply).state.row "e").bind (fun x =>
        ((consuming reply).state.store.getQuote x.quoteId).bind (·.evidence)) = some evidence := by decide +kernel
  obtain ⟨stands,simulated,stored⟩ := run
  obtain ⟨b',next,history,here,_⟩ := of_consumes stands
  obtain ⟨⟨b,proposerId,expiresAt,asked⟩,same⟩ :=
    approval_consumed_iff Signer.Sample.web3 deployment 0 (consumption reply) 2 "e" b' next history here
  obtain ⟨q,request,fresh,kept,⟨x,found,read⟩,_,has,fetched,_,_,iff,_⟩ := same b proposerId expiresAt (.ok ()) asked
  refine ⟨b,b',proposerId,expiresAt,⟨next,history,here⟩,asked,iff.mpr ?_⟩
  have known : fresh = evidence := by simpa [simulates] using List.all_eq_true.mp simulated _ fetched
  have quoted : kept = evidence := by
    change ((consuming reply).state.row "e") = some x at found
    change ((consuming reply).state.store.getQuote x.quoteId) = some q at read
    rw [found,Option.bind_some,read,Option.bind_some,has] at stored
    exact Option.some.inj stored
  rw [known,quoted]
  exact ⟨rfl,rfl,rfl⟩

open Trading.Sample in
/-- The simulation of `execute` lands a slot later. What is consumed is not what was
approved, and the engine refuses it. -/
theorem approval_mismatched : ∃ b b' proposerId expiresAt,
    (∃ next history, (consuming laterReply).threads 2 = some ⟨.perform (.approvalConsume "e" b') next,history⟩) ∧
      ⟨.approvalRequest "e" b proposerId expiresAt,.ok ()⟩ ∈ (consuming laterReply).trace ∧
      b.simulationBlock = "8" ∧ b'.simulationBlock = "7" ∧
      ∀ engine s, Filed engine (approvalInput "e" b proposerId expiresAt) s → Available s "e" →
        (Session.exec (ApprovalEngine.consume engine "e" b') s).1 = .error "Exact transaction mismatch" := by
  have run : consumes "7" ((consuming laterReply).threads 2) = true ∧
      (consuming laterReply).trace.any (asksFor "8") = true := by decide +kernel
  obtain ⟨b',next,history,here,kept⟩ := of_consumes run.1
  obtain ⟨b,proposerId,expiresAt,asked,fresh⟩ := of_asksFor run.2
  refine ⟨b,b',proposerId,expiresAt,⟨next,history,here⟩,asked,fresh,kept,fun engine s filed available => ?_⟩
  refine (consume_filed_iff filed b').mpr ⟨available,fun same => ?_⟩
  have block : b'.simulationBlock = b.simulationBlock := (evidence_of_serialize_eq same).2.1
  rw [kept,fresh] at block
  exact absurd block (by decide)

end RatifyOs.Trading
