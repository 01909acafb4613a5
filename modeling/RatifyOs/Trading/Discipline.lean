import RatifyOs.Trading.System

/-! What a call may do, in terms of what it has done before: each transition it asks for,
each authorization, signature, broadcast and reservation call it makes. -/
namespace RatifyOs.Trading
open Async Data
open Async.Program hiding pure throw

abbrev Log := History Op Op.Ans String

/-- The effects that look at the row of an execution or use up what such a look allows. -/
def touches (e : String) : Entry Op Op.Ans String → Bool
  | ⟨.getExecution id,_⟩ => id = e
  | ⟨.transition id _ _,_⟩ => id = e
  | ⟨.issue id _ _ _,_⟩ => id = e
  | _ => false

def lastTouch (e : String) (h : Log) : Option (Entry Op Op.Ans String) := h.find? (touches e)

/-- The call's last touch of the execution read this row. -/
def LastRead (e : String) (h : Log) (x : Execution) : Prop :=
  lastTouch e h = some ⟨.getExecution e,.ok (some x)⟩

/-- The call found the row in `signing`, or put it there, and has not authorized since. -/
def Armed (e : String) (h : Log) : Prop :=
  (∃ x, LastRead e h x ∧ x.state = .signing) ∨
    ∃ x, lastTouch e h = some ⟨.transition e [.approved] { state := some .signing },.ok x⟩

def persistPatch (authorizationId : Option String) (messageHash signature : String) (limit : ℕ) : Patch where
  state := some .submitting
  authorizationId := authorizationId
  messageHash := some messageHash
  signature := some signature
  lastValidBlockHeight := some limit

/-- The call has read this row of `e`. -/
inductive Known (e : String) (h : Log) (x : Execution) : Prop where
  | own (read : ⟨.getExecution e,.ok (some x)⟩ ∈ h)
  | named {id} (same : x.id = e) (read : ⟨.getExecution id,.ok (some x)⟩ ∈ h)
  | listed {states rows} (same : x.id = e) (read : ⟨.list states,.ok rows⟩ ∈ h) (member : x ∈ rows)

/-- The call has read the quote of the execution. -/
def Quoted (e : String) (h : Log) (q : Quote) : Prop :=
  ∃ x, Known e h x ∧ ⟨.getQuote x.quoteId,.ok (some q)⟩ ∈ h

/-- The quote of the execution carries a request for the message with this hash. -/
def Approved (e : String) (h : Log) (messageHash : String) : Prop :=
  ∃ q request, Quoted e h q ∧ q.request = some request ∧ request.messageHash = messageHash

theorem Known.mono {e : String} {h later : Log} {x : Execution} (known : Known e h x) (grown : h ⊆ later) :
    Known e later x := by
  cases known with
  | own read => exact .own (grown read)
  | named same read => exact .named same (grown read)
  | listed same read member => exact .listed same (grown read) member

theorem Quoted.mono {e : String} {h later : Log} {q : Quote} (quoted : Quoted e h q) (grown : h ⊆ later) :
    Quoted e later q := by
  obtain ⟨x,known,read⟩ := quoted
  exact ⟨x,known.mono grown,grown read⟩

theorem Approved.mono {e : String} {h later : Log} {messageHash : String} (approved : Approved e h messageHash)
    (grown : h ⊆ later) : Approved e later messageHash := by
  obtain ⟨q,request,quoted,asked,hash⟩ := approved
  exact ⟨q,request,quoted.mono grown,asked,hash⟩

/-- The response of the signer that `signature` was checked against. -/
inductive Responded (e wire signature messageHash : String) : Entry Op Op.Ans String → Prop where
  | signed {transaction env response} (same : response.transaction = some wire)
      (reported : response.signature = some signature) :
      Responded e wire signature messageHash ⟨.sign e transaction env,.ok response⟩
  | recovered {authorizationId response} (same : response.transaction = some wire)
      (reported : response.signature = some signature) :
      Responded e wire signature messageHash ⟨.result e authorizationId messageHash,.ok response⟩

/-- The call was told that the signature is unknown, and then a height past the row's validity. -/
def Past (h : Log) (signature : String) (x : Execution) : Prop :=
  ∃ limit height newer older, x.lastValidBlockHeight = some limit ∧ limit < height ∧
    h = newer ++ ⟨.blockHeight,.ok height⟩ :: ⟨.status signature,.ok none⟩ :: older

section Rules
variable (web3 : Signer.Web3) (c : Deployment)

/-- The transitions of the lifecycle. -/
inductive Move (h : Log) (e : String) : List TradeState → Patch → Prop where
  | decide {outcome approver} (either : outcome = .approved ∨ outcome = .denied) :
      Move h e [.awaitingApproval] { state := some outcome, approver := approver }
  | request : Move h e [.awaitingApproval] { approvalId := some e }
  | start : Move h e [.approved] { state := some .signing }
  | authorize {request evidence references env rest}
      (issued : h = ⟨.issue e request evidence references,.ok env⟩ :: rest) :
      Move h e [.signing] { authorizationId := some env.claims.id }
  | persist {authorizationId messageHash signature limit wire response rest}
      (responded : h = response :: rest) (checked : Responded e wire signature messageHash response)
      (attached : Signer.signatureOf web3 wire = .ok signature) (nonempty : signature ≠ "")
      (approved : Approved e h messageHash) :
      Move h e [.signing] (persistPatch authorizationId messageHash signature limit)
  | settle {authorizationId messageHash signature limit x}
      (persisted : ⟨.transition e [.signing] (persistPatch authorizationId messageHash signature limit),.ok x⟩ ∈ h)
      (committed : c.reservations = true → ∃ done rest, h = ⟨.commit e x.reservationId,.ok done⟩ :: rest) :
      Move h e [.submitting] { state := some .broadcast, signature := some signature }
  | unknown : Move h e [.submitting] { state := some .reconciliationRequired }
  | expire {s} (live : s = .approved ∨ s = .signing) : Move h e [s] { state := some .expired }
  | drop {x signature} (read : LastRead e h x) (known : x.signature = some signature) (past : Past h signature x) :
      Move h e [x.state] { state := some .dropped }
  | doubt {x signature} (read : LastRead e h x) (known : x.signature = some signature)
      (certain : x.state ≠ .reconciliationRequired) :
      Move h e [x.state] { state := some .reconciliationRequired }
  | observe {x signature status rest} (read : LastRead e h x) (known : x.signature = some signature)
      (seen : h = ⟨.status signature,.ok (some status)⟩ :: rest) :
      Move h e [x.state]
        { state := some (settledState c status), signature := some signature, slot := some status.slot }

def allow (h : Log) : Op → Prop
  | .create _ state => state = .awaitingApproval ∨ state = .dryRun
  | .transition e states patch => Move web3 c h e states patch
  | .issue e _ _ _ => Armed e h
  | .sign e _ env => ∃ patch x request evidence references rest,
      h = ⟨.transition e [.signing] patch,.ok x⟩ :: ⟨.issue e request evidence references,.ok env⟩ :: rest
  | .broadcast e wire => ∃ authorizationId messageHash signature limit x response rest,
      h = ⟨.transition e [.signing] (persistPatch authorizationId messageHash signature limit),.ok x⟩ ::
        response :: rest ∧
      Responded e wire signature messageHash response ∧ Signer.signatureOf web3 wire = .ok signature
  | .commit e reservationId => ∃ authorizationId messageHash signature limit x,
      ⟨.transition e [.signing] (persistPatch authorizationId messageHash signature limit),.ok x⟩ ∈ h ∧
        reservationId = x.reservationId
  | .release e reservationId => ∃ x, LastRead e h x ∧ x.reservationId = some reservationId
  | _ => True

/-- The program keeps to the rules from there on. -/
def Safe {α : Type} (p : Trade α) (h : Log) : Prop :=
  p.wp (allow web3 c) (fun _ _ => True) (fun _ _ => True) h

theorem Safe.then {α β : Type} {p : Trade α} {f : α → Trade β} {h : Log} (first : Safe web3 c p h)
    (rest : ∀ value h, Safe web3 c (f value) h) : Safe web3 c (p >>= f) h := by
  rw [Safe,wp_bind]
  exact wp_mono p first (fun value h _ => rest value h) fun _ _ _ => trivial

theorem assertSignedTransaction_ok {transaction signature : Option String} {attached : String}
    (ok : assertSignedTransaction web3 transaction signature = .ok attached) :
    signature = some attached ∧ attached ≠ "" ∧
      ∃ wire, transaction = some wire ∧ Signer.signatureOf web3 wire = .ok attached := by
  simp only [assertSignedTransaction,Data.Result.bind_eq_ok,Data.Result.required_eq_ok,
    Data.Result.reject_eq_ok,Data.Result.pure_eq_ok,present_eq_some,not_not] at ok
  obtain ⟨wire,there,reported,⟨same,nonempty⟩,read,decoded,_,rfl,rfl⟩ := ok
  refine ⟨same,nonempty,wire,there,?_⟩
  cases found : Signer.signatureOf web3 wire with
  | error error => simp [found,Except.mapError] at decoded
  | ok value => simpa [found,Except.mapError] using decoded

theorem require_safe (id : String) (h : Log) : Safe web3 c (require id) h := by
  simp [Safe,require,allow]

theorem expire_safe (id : String) (s : TradeState) (live : s = .approved ∨ s = .signing) (h : Log) :
    Safe web3 c (expire c id [s]) h := by
  have move : ∀ h, Move web3 c h id [s] { state := some .expired } := fun h => .expire live
  simp only [Safe,expire,wp_bind,wp_call,allow,true_and,implies_true,and_true]
  intro found
  cases reserved : found.bind fun x => present x.reservationId with
  | none => simp [allow,move]
  | some reservationId =>
    obtain ⟨x,rfl,same⟩ := Option.bind_eq_some_iff.mp reserved
    simp only [present_eq_some] at same
    simp [allow,move,LastRead,lastTouch,touches,same.1]

theorem refreshApproval_safe (id : String) (operator : Option String) (h : Log) :
    Safe web3 c (refreshApproval c id operator) h := by
  have move : ∀ h outcome, outcome = .approved ∨ outcome = .denied →
      Move web3 c h id [.awaitingApproval] { state := some outcome, approver := present operator } :=
    fun h outcome either => .decide either
  simp [Safe,refreshApproval,require,allow,move]

theorem approve_safe (id operator : String) (input : Option Execution.DecisionInput) (h : Log) :
    Safe web3 c (approve c id operator input) h := by
  have refresh := refreshApproval_safe web3 c id (some operator)
  unfold Safe at refresh
  simp only [Safe,approve,wp_bind]
  refine wp_mono _ (require_safe web3 c id h) (fun x h _ => ?_) fun _ _ _ => trivial
  cases input <;> cases present x.approvalId <;> simp [allow,refresh]

theorem deny_safe (id operator : String) (input : Option Execution.DecisionInput) (h : Log) :
    Safe web3 c (deny c id operator input) h := by
  have refresh := refreshApproval_safe web3 c id (some operator)
  unfold Safe at refresh
  simp [Safe,deny,require,allow,refresh]

theorem resimulate_safe (q : Quote) (h : Log) : Safe web3 c (resimulate q) h := by
  unfold resimulate
  cases q.request with
  | some request =>
    refine Safe.then web3 c (by simp [Safe,allow]) fun got h => ?_
    cases got <;> simp [Safe]
  | none =>
    refine Safe.then web3 c (by simp [Safe,allow]) fun got h => ?_
    rcases got with e | (_ | _) <;> simp [Safe]

theorem executeLive_safe (quoteId : String) (q : Quote) (evidence : Option Execution.SimulationEvidence)
    (o : ExecuteOptions) (h : Log) : Safe web3 c (executeLive c quoteId q evidence o) h := by
  have request : ∀ h id, Move web3 c h id [.awaitingApproval] { approvalId := some id } := fun _ _ => .request
  have approve : ∀ h id, Move web3 c h id [.awaitingApproval] { state := some .approved } := fun _ _ =>
    .decide (.inl rfl)
  simp [Safe,executeLive,optionally,allow,request,approve]

theorem execute_safe (quoteId : String) (o : ExecuteOptions) (h : Log) :
    Safe web3 c (execute c quoteId o) h := by
  refine Safe.then web3 c (by simp [Safe,allow]) fun old h => ?_
  cases old with
  | some old => simp [Safe]
  | none =>
    have live := executeLive_safe web3 c quoteId
    unfold Safe at live
    simp only [Safe,executeNew,wp_bind,wp_call,wp_ofOption,wp_reject,allow,true_and,implies_true,and_true]
    intro found q _ now _ _
    refine wp_mono _ (resimulate_safe web3 c q _) (fun evidence h _ => ?_) fun _ _ _ => trivial
    simp [live,allow]

/-- The end of `submit` and of `recoverSigning`, once the landed signature is the
persisted one. -/
private theorem settle_safe (id : String) (authorizationId : Option String) (messageHash signature : String)
    (limit : ℕ) (x : Execution) (h : Log)
    (persisted : ⟨.transition id [.signing] (persistPatch authorizationId messageHash signature limit),.ok x⟩ ∈ h) :
    Safe web3 c (do
      onlyIf c.reservations (call (Op.commit id x.reservationId))
      call (Op.transition id [.submitting] { state := some .broadcast, signature := some signature })) h := by
  have committing : allow web3 c h (.commit id x.reservationId) := ⟨_,_,_,_,x,persisted,rfl⟩
  simp only [Safe,wp_bind,wp_onlyIf,wp_call,committing,implies_true,and_true,true_and]
  refine ⟨fun there done => ?_,fun absent => ?_⟩
  · exact .settle (List.mem_cons_of_mem _ persisted) fun _ => ⟨done,_,rfl⟩
  · exact .settle persisted fun there => absurd there absent

theorem submitSigning_safe (id : String) (q : Quote) (request : Execution.SimulationRequest)
    (evidence : Execution.SimulationEvidence) (approvalId : String) (x : Execution) (h : Log)
    (armed : Armed id h) (quoted : Approved id h request.messageHash) :
    Safe web3 c (submitSigning web3 c id q request evidence approvalId x) h := by
  simp only [Safe,submitSigning,wp_bind,wp_call,wp_ofExcept,allow,armed,true_and,implies_true,and_true]
  intro env
  refine ⟨.authorize rfl,fun authorized => ⟨⟨_,_,_,_,_,_,rfl⟩,fun signed signature ok => ?_⟩⟩
  obtain ⟨reported,nonempty,wire,there,attached⟩ := assertSignedTransaction_ok web3 ok
  have responded : Responded id wire signature request.messageHash
      ⟨.sign id request.transaction env,.ok signed⟩ := .signed there reported
  have still : Approved id (⟨.sign id request.transaction env,.ok signed⟩ :: ⟨.transition id [.signing]
      { authorizationId := some env.claims.id },.ok authorized⟩ :: ⟨.issue id request evidence _,.ok env⟩ :: h)
      request.messageHash := by
    apply quoted.mono
    intro entry inside
    simp [inside]
  refine ⟨.persist rfl responded attached nonempty still,fun persisted => ?_⟩
  have settle := settle_safe web3 c id (some env.claims.id) request.messageHash signature
    q.lastValidBlockHeight persisted
  simp only [Safe,wp_bind] at settle
  cases signed.broadcast with
  | some landed =>
    simp only [wp_pure,wp_bind,wp_reject,not_not,implies_true,true_and]
    intro same
    subst same
    exact settle _ List.mem_cons_self
  | none =>
    simp only [wp_call,wp_bind,wp_reject,not_not,implies_true,true_and,and_true,there,Option.getD_some]
    refine ⟨⟨_,_,_,_,_,_,_,rfl,responded,attached⟩,fun landed same => ?_⟩
    subst same
    exact settle _ (by simp [persistPatch])

private theorem validReservation_wp (x : Execution) (h : Log) :
    (validReservation c x).wp (allow web3 c)
      (fun _ h' => h ⊆ h' ∧ ∀ e, lastTouch e h' = lastTouch e h) (fun _ _ => True) h := by
  unfold validReservation
  cases present x.reservationId with
  | none => simp
  | some reservationId => simp [allow,lastTouch,touches]

theorem recover_safe (id : String) (h : Log) : Safe web3 c (recover id) h := by
  have move : ∀ h, Move web3 c h id [.submitting] { state := some .reconciliationRequired } := fun _ => .unknown
  simp [Safe,recover,require,allow,move]

private theorem exactQuote_request {stored : Option Quote}
    {exact : Quote × Execution.SimulationRequest × Execution.SimulationEvidence}
    (quoted : exactQuote stored = some exact) : ∃ q, stored = some q ∧ q.request = some exact.2.1 := by
  simp only [exactQuote,Option.pure_def,Option.bind_eq_bind,Option.bind_eq_some_iff] at quoted
  obtain ⟨q,there,request,asked,evidence,_,same⟩ := quoted
  cases Option.some.inj same
  exact ⟨q,there,asked⟩

theorem abandonSubmission_safe (id error : String) (h : Log) :
    Safe web3 c (abandonSubmission id error) h := by
  have move : ∀ h, Move web3 c h id [.submitting] { state := some .reconciliationRequired } := fun _ => .unknown
  simp [Safe,abandonSubmission,require,allow,move]

/-- `submit` authorizes on the strength of its own read, or of its own move to `signing`. -/
theorem submitApproved_safe (id : String) (x : Execution) (q : Quote) (request : Execution.SimulationRequest)
    (evidence : Execution.SimulationEvidence) (h : Log) (read : LastRead id h x)
    (live : x.state = .approved ∨ x.state = .signing) (quoted : Approved id h request.messageHash) :
    Safe web3 c (submitApproved web3 c id x q request evidence) h := by
  have signing : ∀ approvalId x' h', h ⊆ h' → Armed id h' → Safe web3 c
      (tryCatch (submitSigning web3 c id q request evidence approvalId x') (abandonSubmission id)) h' := by
    intro approvalId x' h' recorded armed
    have body := submitSigning_safe web3 c id q request evidence approvalId x' h' armed (quoted.mono recorded)
    exact wp_tryCatch_of _ _ body fun error h _ => abandonSubmission_safe web3 c id error h
  have enter : ∀ approvalId h', h ⊆ h' → lastTouch id h' = lastTouch id h → Safe web3 c (do
      let x' ← (if x.state = .approved then
        call (Op.transition id [.approved] { state := some .signing }) else pure x)
      tryCatch (submitSigning web3 c id q request evidence approvalId x') (abandonSubmission id)) h' := by
    intro approvalId h' recorded same
    simp only [Safe,wp_bind,wp_ite,wp_call,wp_pure,allow,implies_true,and_true]
    refine ⟨fun _ => ⟨.start,fun moved => ?_⟩,fun waiting => ?_⟩
    · exact signing approvalId moved _ (List.subset_cons_of_subset _ recorded)
        (.inr ⟨moved,by simp [lastTouch,touches]⟩)
    · refine signing approvalId x h' recorded (.inl ⟨x,?_,live.resolve_left waiting⟩)
      rw [LastRead,same]
      exact read
  unfold Safe at enter
  simp only [Safe,submitApproved,wp_bind]
  refine wp_mono _ (validReservation_wp web3 c x h) (fun valid h' kept => ?_) fun _ _ _ => trivial
  obtain ⟨recorded,same⟩ := kept
  simp only [wp_bind] at enter
  simp only [wp_bind,wp_reject,wp_ofOption,wp_call,wp_onlyIf,allow,true_and,implies_true,and_true]
  refine fun _ approvalId _ approval => ⟨fun _ consumed => ?_,fun _ => ?_⟩
  · refine enter approvalId _ ?_ ?_
    · exact List.subset_cons_of_subset _ (List.subset_cons_of_subset _ recorded)
    · rw [← same id]
      simp [lastTouch,touches]
  · refine enter approvalId _ (List.subset_cons_of_subset _ recorded) ?_
    rw [← same id]
    simp [lastTouch,touches]

theorem submit_safe (id : String) (h : Log) : Safe web3 c (submit web3 c id) h := by
  simp only [Safe,submit,require,wp_bind,wp_call,wp_ofOption,wp_reject,wp_ite,allow,true_and,implies_true,
    and_true]
  intro row x found live stored exact quoted
  subst found
  have either : x.state = .approved ∨ x.state = .signing := by
    by_cases approved : x.state = .approved
    · exact .inl approved
    · exact .inr (not_not.mp fun other => live ⟨approved,other⟩)
  obtain ⟨q,rfl,asked⟩ := exactQuote_request quoted
  refine fun _ now _ height => ⟨fun _ => ?_,fun _ => ?_⟩
  · exact wp_mono _ (expire_safe web3 c id x.state either _) (fun _ _ _ => by simp) fun _ _ _ => trivial
  · exact submitApproved_safe web3 c id x exact.1 exact.2.1 exact.2.2 _
      (by simp [LastRead,lastTouch,touches]) either ⟨q,exact.2.1,⟨x,.own (by simp),by simp⟩,asked,rfl⟩

theorem recoverSigned_safe (row : Execution) (q : Quote) (request : Execution.SimulationRequest)
    (signed : ResultResponse) (authorizationId : String) (h : Log)
    (answered : ∃ rest, h = ⟨.result row.id authorizationId request.messageHash,.ok signed⟩ :: rest)
    (quoted : Approved row.id h request.messageHash) :
    Safe web3 c (recoverSigned web3 c row q request signed) h := by
  obtain ⟨rest,rfl⟩ := answered
  simp only [Safe,recoverSigned,wp_bind,wp_call,wp_ofExcept,wp_ofOption,allow,implies_true,and_true,present_eq_some]
  rintro wire ⟨there,_⟩ signature ok
  obtain ⟨reported,nonempty,wire',same,attached⟩ := assertSignedTransaction_ok web3 ok
  cases Option.some.inj same
  have responded : Responded row.id wire signature request.messageHash
      ⟨.result row.id authorizationId request.messageHash,.ok signed⟩ := .recovered there reported
  refine ⟨.persist rfl responded attached nonempty quoted,fun x => ⟨⟨_,_,_,_,_,_,_,rfl,responded,attached⟩,
    fun landed => ?_⟩⟩
  have settle := settle_safe web3 c row.id none request.messageHash signature q.lastValidBlockHeight x
  simp only [Safe,wp_bind] at settle
  simp only [wp_ite,wp_bind,wp_call,wp_throw,implies_true,and_true]
  refine ⟨fun _ => .unknown,fun same => ?_⟩
  cases not_not.mp same
  exact settle _ (by simp [persistPatch])

theorem recoverSigning_safe (row : Execution) (h : Log) (known : Known row.id h row) :
    Safe web3 c (recoverSigning web3 c row) h := by
  simp only [Safe,recoverSigning,wp_bind,wp_call,wp_ofOption,allow,true_and,implies_true,and_true]
  intro stored exact quoted
  obtain ⟨q,rfl,r,asked,same⟩ : ∃ q, stored = some q ∧ ∃ r, q.request = some r ∧ exact = (q,r) := by
    simp only [Option.pure_def,Option.bind_eq_bind,Option.bind_eq_some_iff,Option.some.injEq] at quoted
    obtain ⟨q,there,r,asked,same⟩ := quoted
    exact ⟨q,there,r,asked,same.symm⟩
  subst same
  cases present row.authorizationId with
  | none => exact submit_safe web3 c row.id _
  | some authorizationId =>
    simp only [wp_bind,wp_reject,wp_call,allow,true_and,implies_true,and_true]
    intro _ signed
    cases signed.state with
    | expired =>
      simp only [wp_bind]
      exact wp_mono _ (expire_safe web3 c row.id .signing (.inr rfl) _) (fun _ _ _ => by simp) fun _ _ _ => trivial
    | notFound => simp
    | other => simp
    | signed =>
      exact recoverSigned_safe web3 c row q r signed authorizationId _ ⟨_,rfl⟩
        ⟨q,r,⟨row,known.mono (fun entry inside => by simp [inside]),by simp⟩,asked,rfl⟩

private theorem dropExecution_safe (id : String) (x : Execution) (signature : String)
    (known : x.signature = some signature) (h : Log) (read : LastRead id h x) (past : Past h signature x) :
    Safe web3 c (dropExecution c id x) h := by
  have move : Move web3 c h id [x.state] { state := some .dropped } := .drop read known past
  unfold dropExecution
  cases reserved : present x.reservationId with
  | none => simp [Safe,allow,move]
  | some reservationId =>
    simp only [present_eq_some] at reserved
    have later : ∀ done, Move web3 c (⟨.release id reservationId,.ok done⟩ :: h) id [x.state]
        { state := some .dropped } := by
      intro done
      obtain ⟨limit,height,newer,older,bound,dead,told⟩ := past
      exact .drop read known ⟨limit,height,⟨.release id reservationId,.ok done⟩ :: newer,older,bound,dead,by rw [told]; rfl⟩
    have releasing : allow web3 c h (.release id reservationId) := ⟨x,read,reserved.1⟩
    simp only [Safe,wp_bind,wp_onlyIf,wp_call,releasing,implies_true,and_true,true_and]
    exact ⟨fun _ done => later done,fun _ => move⟩

theorem reconcile_safe (id : String) (h : Log) : Safe web3 c (reconcile c id) h := by
  simp only [Safe,reconcile,require,wp_bind,wp_call,wp_ofOption,allow,true_and,implies_true,and_true,
    present_eq_some]
  intro row x found signature known status
  subst found
  have read : LastRead id (⟨.status signature,.ok status⟩ :: ⟨.getExecution id,.ok (some x)⟩ :: h) x := by
    simp [LastRead,lastTouch,touches]
  cases status with
  | some status =>
    simp only [wp_call,allow,implies_true,and_true]
    exact .observe read known.1 rfl
  | none =>
    have decide : ∀ past h, LastRead id h x → (past = true → Past h signature x) → Safe web3 c
        (if past = true then dropExecution c id x
        else if x.state = .reconciliationRequired then return x
        else call (Op.transition id [x.state] { state := some .reconciliationRequired })) h := by
      intro past h read beyond
      rw [Safe,wp_ite]
      refine ⟨fun dead => dropExecution_safe web3 c id x signature known.1 h read (beyond dead),fun _ => ?_⟩
      rw [wp_ite]
      refine ⟨fun _ => by simp,fun certain => ?_⟩
      have move : Move web3 c h id [x.state] { state := some .reconciliationRequired } :=
        .doubt read known.1 certain
      simp [allow,move]
    simp only [Safe] at decide
    unfold pastValidity
    cases bound : x.lastValidBlockHeight with
    | none => exact decide false _ read fun dead => by cases dead
    | some limit =>
      simp only [wp_bind,wp_call,wp_pure,allow,true_and,implies_true,and_true]
      intro height
      apply decide
      · exact read
      · intro dead
        exact ⟨limit,height,[],_,bound,of_decide_eq_true dead,rfl⟩

theorem recoverRow_safe (row : Execution) (totals : Recovery) (h : Log) (known : Known row.id h row) :
    Safe web3 c (recoverRow web3 c row totals) h := by
  refine wp_tryCatch_of _ _ (?_ : Safe web3 c _ h) fun _ _ _ => by simp
  rw [Safe,wp_ite]
  refine ⟨fun _ => ?_,fun _ => ?_⟩
  · exact Safe.then web3 c (recoverSigning_safe web3 c row h known) fun _ _ => by simp [Safe]
  · rw [wp_ite]
    refine ⟨fun _ => ?_,fun _ => ?_⟩
    · exact Safe.then web3 c (recover_safe web3 c row.id h) fun _ _ => by simp [Safe]
    · exact Safe.then web3 c (reconcile_safe web3 c row.id h) fun _ _ => by simp [Safe]

theorem recoverRows_safe (rows : List Execution) (totals : Recovery) (h : Log)
    (known : ∀ row ∈ rows, Known row.id h row) : Safe web3 c (recoverRows web3 c rows totals) h := by
  induction rows generalizing totals h with
  | nil => simp [Safe,recoverRows]
  | cons row rows ih =>
    have first := wp_recorded _ (recoverRow_safe web3 c row totals h (known row List.mem_cons_self))
    unfold Safe recoverRows
    rw [wp_bind]
    apply wp_mono _ first
    · intro totals after grown
      apply ih
      intro later member
      exact (known later (List.mem_cons_of_mem _ member)).mono grown.2
    · exact fun _ _ _ => trivial

theorem recoverAndReconcile_safe (limit : ℤ) (h : Log) :
    Safe web3 c (recoverAndReconcile web3 c limit) h := by
  simp only [Safe,recoverAndReconcile,wp_bind,wp_call,allow,true_and,implies_true,and_true]
  intro all
  apply recoverRows_safe
  intro row member
  exact .listed rfl List.mem_cons_self (List.mem_of_mem_take member)

theorem program_safe (call : Call) : ((system web3 c).program call).wp (allow web3 c)
    (fun _ _ => True) (fun _ _ => True) [] := by
  have discarded : ∀ {α : Type} {p : Trade α}, Safe web3 c p [] → Safe web3 c (discard p) [] :=
    fun safe => Safe.then web3 c safe fun _ _ => by simp [Safe]
  cases call with
  | execute quoteId o => exact discarded (execute_safe web3 c quoteId o [])
  | approve id operator input => exact discarded (approve_safe web3 c id operator input [])
  | deny id operator input => exact discarded (deny_safe web3 c id operator input [])
  | refreshApproval id operator => exact discarded (refreshApproval_safe web3 c id operator [])
  | submit id => exact discarded (submit_safe web3 c id [])
  | recover id => exact discarded (recover_safe web3 c id [])
  | recoverSigning id =>
    refine discarded ?_
    simp only [Safe,require,wp_bind,wp_call,wp_ofOption,allow,true_and,implies_true,and_true]
    intro read row found
    subst found
    exact recoverSigning_safe web3 c row _ (.named rfl List.mem_cons_self)
  | reconcile id => exact discarded (reconcile_safe web3 c id [])
  | recoverAndReconcile limit => exact discarded (recoverAndReconcile_safe web3 c limit [])

end Rules

end RatifyOs.Trading
