import RatifyOs.Trading.Accounting
import RatifyOs.Trading.Approved

/-! The capital of executions that are over: what releases it, and what keeps it. -/
namespace RatifyOs.Trading
open Async Data RatifyOs.Execution
open Async.Program hiding pure throw

/-- The states of an execution that will not spend any more. -/
def TradeState.closed : TradeState → Bool
  | .denied | .expired | .dropped => true
  | .awaitingApproval | .approved | .dryRun | .signing | .submitting | .reconciliationRequired | .broadcast
  | .confirmed | .finalized | .failed => false

section Rules
variable (web3 : Signer.Web3) (c : Deployment)

/-- The call has released the reservation that it read of the execution, if it read one. -/
def Unburdened (h : Log) (e : String) : Prop :=
  (∃ x, ⟨.getExecution e,.ok (some x)⟩ ∈ h ∧ ∀ r, present x.reservationId = some r → c.reservations = true →
    ∃ done, ⟨.release e r,.ok done⟩ ∈ h) ∨
  ∃ rest x, h = ⟨.getExecution e,.ok none⟩ :: rest ∧ Known e rest x

def clears (h : Log) : Op → Prop
  | .create x _ => x.reservationId ≠ some "" ∧ (c.reservations = false → x.reservationId = none)
  | .transition e _ patch => patch.state = some .expired ∨ patch.state = some .dropped → Unburdened c h e
  | _ => True

attribute [local simp] clears

def Clear {α : Type} (p : Trade α) (h : Log) : Prop := p.wp (clears c) (fun _ _ => True) (fun _ _ => True) h

private theorem Clear.then {α β : Type} {p : Trade α} {f : α → Trade β} {h : Log} (first : Clear c p h)
    (rest : ∀ value h, Clear c (f value) h) : Clear c (p >>= f) h := by
  rw [Clear,wp_bind]
  exact wp_mono p first (fun value h _ => rest value h) fun _ _ _ => trivial

private theorem refreshApproval_clear (id : String) (operator : Option String) (h : Log) :
    Clear c (refreshApproval c id operator) h := by
  simp [Clear,refreshApproval,require]

private theorem approve_clear (id operator : String) (input : Option DecisionInput) (h : Log) :
    Clear c (approve c id operator input) h := by
  have refresh := refreshApproval_clear c id (some operator)
  unfold Clear at refresh
  simp only [Clear,approve,require,wp_bind,wp_call,wp_ofOption,wp_reject,clears,implies_true,and_true,true_and]
  intro _ x _ _ _
  cases input <;> cases present x.approvalId <;> simp [refresh]

private theorem deny_clear (id operator : String) (input : Option DecisionInput) (h : Log) :
    Clear c (deny c id operator input) h := by
  have refresh := refreshApproval_clear c id (some operator)
  unfold Clear at refresh
  simp [Clear,deny,require,refresh]

private theorem execute_clear (quoteId : String) (o : ExecuteOptions) (h : Log) : Clear c (execute c quoteId o) h := by
  refine Clear.then c (by simp [Clear]) fun old h => ?_
  cases old with
  | some old => simp [Clear]
  | none =>
    unfold executeNew
    refine Clear.then c (by simp [Clear]) fun found h => ?_
    refine Clear.then c (by simp [Clear]) fun q h => ?_
    refine Clear.then c (by simp [Clear]) fun now h => ?_
    refine Clear.then c (by simp [Clear]) fun _ h => ?_
    refine Clear.then c (by simp [Clear]) fun _ h => ?_
    have again : Clear c (resimulate q) h := by
      unfold resimulate
      cases q.request with
      | some request =>
        refine Clear.then c (by simp [Clear]) fun got h => ?_
        cases got <;> simp [Clear]
      | none =>
        refine Clear.then c (by simp [Clear]) fun got h => ?_
        rcases got with e | (_ | _) <;> simp [Clear]
    refine Clear.then c again fun evidence h => ?_
    unfold Clear
    rw [wp_ite]
    refine ⟨fun _ => by simp [newExecution],fun _ => ?_⟩
    have nonempty : ∀ id : Option String, present id ≠ some "" := by simp [present_eq_some]
    have absent : present none = none := rfl
    cases reserving : c.reservations <;> simp [executeLive,optionally,newExecution,nonempty,absent,reserving]

private theorem expire_clear (id : String) (states : List TradeState) (h : Log) {x : Execution} (known : Known id h x) :
    Clear c (expire c id states) h := by
  simp only [Clear,expire,wp_bind,wp_call,clears,implies_true,and_true,true_and]
  intro found
  cases found with
  | none =>
    simp only [Option.bind_none,wp_call,clears,implies_true,and_true]
    exact fun _ => .inr ⟨h,x,rfl,known⟩
  | some y =>
    rw [Option.bind_some]
    cases reserved : present y.reservationId with
    | none =>
      simp only [wp_call,clears,implies_true,and_true]
      refine fun _ => .inl ⟨y,List.mem_cons_self,?_⟩
      intro r same
      rw [reserved] at same
      cases same
    | some id' =>
      simp only [wp_bind,wp_onlyIf,wp_call,clears,implies_true,and_true,true_and]
      refine ⟨fun there done _ => .inl ⟨y,by simp,?_⟩,fun absent _ => .inl ⟨y,List.mem_cons_self,?_⟩⟩
      · intro r same _
        rw [reserved,Option.some.injEq] at same
        subst same
        exact ⟨done,List.mem_cons_self⟩
      · exact fun _ _ there => absurd there absent

private theorem submitApproved_clear (id : String) (x : Execution) (q : Quote) (request : SimulationRequest)
    (evidence : SimulationEvidence) (h : Log) : Clear c (submitApproved web3 c id x q request evidence) h := by
  have abandon (error : String) (h : Log) : Clear c (abandonSubmission id error) h := by
    simp [Clear,abandonSubmission,require]
  have valid (h : Log) : Clear c (validReservation c x) h := by
    unfold validReservation
    cases present x.reservationId with
    | none => simp [Clear]
    | some reservationId => simp [Clear]
  have signing (approvalId : String) (x : Execution) (h : Log) :
      Clear c (submitSigning web3 c id q request evidence approvalId x) h := by
    simp only [Clear,submitSigning,wp_bind,wp_call,wp_ofExcept,clears,implies_true,and_true,true_and]
    intro env
    refine ⟨by simp,?_⟩
    intro _ signed signature _
    refine ⟨by simp,?_⟩
    intro persisted
    cases signed.broadcast <;> simp
  refine Clear.then c (valid h) fun _ h => ?_
  refine Clear.then c (by simp [Clear]) fun _ h => ?_
  refine Clear.then c (by simp [Clear]) fun approvalId h => ?_
  refine Clear.then c (by simp [Clear]) fun approval h => ?_
  refine Clear.then c (by simp [Clear]) fun _ h => ?_
  refine Clear.then c (by simp [Clear]) fun x h => ?_
  exact wp_tryCatch_of _ _ (signing approvalId x h) fun error h _ => abandon error h

private theorem submit_clear (id : String) (h : Log) : Clear c (submit web3 c id) h := by
  simp only [Clear,submit,require,wp_bind,wp_call,wp_ofOption,wp_reject,wp_ite,clears,true_and,implies_true,and_true]
  intro row x found _ stored exact_ _ _ now _ height
  subst found
  refine ⟨fun _ => ?_,fun _ => submitApproved_clear web3 c id x _ _ _ _⟩
  have known : Known id (⟨.blockHeight,.ok height⟩ :: ⟨.now,.ok now⟩ :: ⟨.getQuote x.quoteId,.ok stored⟩ ::
      ⟨.getExecution id,.ok (some x)⟩ :: h) x := .own (by simp)
  exact wp_mono _ (expire_clear c id [x.state] _ known) (fun _ _ _ => by simp) fun _ _ _ => trivial

private theorem recoverSigning_clear (row : Execution) (h : Log) (known : Known row.id h row) :
    Clear c (recoverSigning web3 c row) h := by
  simp only [Clear,recoverSigning,wp_bind,wp_call,wp_ofOption,clears,true_and,implies_true,and_true]
  intro stored exact_ _
  cases present row.authorizationId with
  | none => exact submit_clear web3 c row.id _
  | some authorizationId =>
    simp only [wp_bind,wp_reject,wp_call,clears,true_and,implies_true,and_true]
    intro _ signed
    cases signed.state with
    | expired =>
      have later : Known row.id (⟨.result row.id authorizationId exact_.2.messageHash,.ok signed⟩ ::
          ⟨.getQuote row.quoteId,.ok stored⟩ :: h) row := known.mono fun entry inside => by simp [inside]
      simp only [wp_bind]
      exact wp_mono _ (expire_clear c row.id [.signing] _ later) (fun _ _ _ => by simp) fun _ _ _ => trivial
    | notFound => simp
    | other => simp
    | signed => simp [recoverSigned]

private theorem settledState_open (status : SignatureStatus) :
    settledState c status ≠ .expired ∧ settledState c status ≠ .dropped := by
  unfold settledState
  split_ifs <;> simp

private theorem reconcile_clear (id : String) (h : Log) : Clear c (reconcile c id) h := by
  simp only [Clear,reconcile,require,wp_bind,wp_call,wp_ofOption,clears,true_and,implies_true,and_true]
  intro row x found signature _ status
  subst found
  cases status with
  | some status =>
    obtain ⟨unexpired,undropped⟩ := settledState_open c status
    simp [unexpired,undropped]
  | none =>
    have decide (past : Bool) (h : Log) (read : ⟨.getExecution id,.ok (some x)⟩ ∈ h) : Clear c
        (if past = true then dropExecution c id x
        else if x.state = .reconciliationRequired then return x
        else call (Op.transition id [x.state] { state := some .reconciliationRequired })) h := by
      rw [Clear,wp_ite]
      refine ⟨fun _ => ?_,fun _ => by simp⟩
      unfold dropExecution
      cases reserved : present x.reservationId with
      | none =>
        simp only [wp_call,clears,implies_true,and_true]
        refine fun _ => .inl ⟨x,read,?_⟩
        intro r same
        rw [reserved] at same
        cases same
      | some id' =>
        simp only [wp_bind,wp_onlyIf,wp_call,clears,implies_true,and_true,true_and]
        refine ⟨fun there done _ => .inl ⟨x,List.mem_cons_of_mem _ read,?_⟩,fun absent _ => .inl ⟨x,read,?_⟩⟩
        · intro r same _
          rw [reserved,Option.some.injEq] at same
          subst same
          exact ⟨done,List.mem_cons_self⟩
        · exact fun _ _ there => absurd there absent
    unfold Clear at decide
    unfold pastValidity
    cases x.lastValidBlockHeight with
    | none => exact decide false _ (by simp)
    | some limit =>
      simp only [wp_bind,wp_call,wp_pure,clears,true_and,implies_true,and_true]
      exact fun height => decide _ _ (by simp)

private theorem recoverRow_clear (row : Execution) (totals : Recovery) (h : Log) (known : Known row.id h row) :
    Clear c (recoverRow web3 c row totals) h := by
  refine wp_tryCatch_of _ _ (?_ : Clear c _ h) fun _ _ _ => by simp
  rw [Clear,wp_ite]
  refine ⟨fun _ => ?_,fun _ => ?_⟩
  · exact Clear.then c (recoverSigning_clear web3 c row h known) fun _ _ => by simp [Clear]
  · rw [wp_ite]
    refine ⟨fun _ => by simp [recover,require],fun _ => ?_⟩
    exact Clear.then c (reconcile_clear c row.id h) fun _ _ => by simp [Clear]

private theorem recoverRows_clear (rows : List Execution) (totals : Recovery) (h : Log)
    (known : ∀ row ∈ rows, Known row.id h row) : Clear c (recoverRows web3 c rows totals) h := by
  induction rows generalizing totals h with
  | nil => simp [Clear,recoverRows]
  | cons row rows ih =>
    have first := wp_recorded _ (recoverRow_clear web3 c row totals h (known row List.mem_cons_self))
    unfold Clear recoverRows
    rw [wp_bind]
    apply wp_mono _ first
    · intro totals after grown
      apply ih
      intro later member
      exact (known later (List.mem_cons_of_mem _ member)).mono grown.2
    · exact fun _ _ _ => trivial

theorem program_clear (call : Call) : ((system web3 c).program call).wp (clears c)
    (fun _ _ => True) (fun _ _ => True) [] := by
  have discarded : ∀ {α : Type} {p : Trade α}, Clear c p [] → Clear c (discard p) [] :=
    fun clear => Clear.then c clear fun _ _ => by simp [Clear]
  cases call with
  | execute quoteId o => exact discarded (execute_clear c quoteId o [])
  | approve id operator input => exact discarded (approve_clear c id operator input [])
  | deny id operator input => exact discarded (deny_clear c id operator input [])
  | refreshApproval id operator => exact discarded (refreshApproval_clear c id operator [])
  | submit id => exact discarded (submit_clear web3 c id [])
  | recover id => exact discarded (by simp [Clear,recover,require])
  | recoverSigning id =>
    refine discarded ?_
    simp only [Clear,require,wp_bind,wp_call,wp_ofOption,clears,true_and,implies_true,and_true]
    intro read row found
    subst found
    exact recoverSigning_clear web3 c row _ (.named rfl List.mem_cons_self)
  | reconcile id => exact discarded (reconcile_clear c id [])
  | recoverAndReconcile limit =>
    refine discarded ?_
    simp only [Clear,recoverAndReconcile,wp_bind,wp_call,clears,true_and,implies_true,and_true]
    intro all
    apply recoverRows_clear
    intro row member
    exact .listed rfl List.mem_cons_self (List.mem_of_mem_take member)

/-- The call has reserved for the execution it is about to make. -/
def reserves : Entry Op Op.Ans String → Bool
  | ⟨.reserve _ _ _,.ok _⟩ => true
  | _ => false

def fails : Entry Op Op.Ans String → Bool
  | ⟨_,.error _⟩ => true
  | ⟨_,.ok _⟩ => false

/-- If the call has reserved at all, its last effect has failed after that. -/
def Blamed (h : Log) : Prop :=
  (∃ entry ∈ h, reserves entry = true) → ∃ entry rest, h = entry :: rest ∧ fails entry = true ∧
    ∃ entry ∈ rest, reserves entry = true

private theorem blamed_failed (op : Op) (error : String) (h : Log) : Blamed (⟨op,.error error⟩ :: h) := by
  intro reserved
  obtain ⟨entry,inside,reserved⟩ := reserved
  refine ⟨_,h,rfl,rfl,?_⟩
  obtain rfl | before := List.mem_cons.mp inside
  · cases op <;> cases reserved
  · exact ⟨entry,before,reserved⟩

private theorem blamed_unreserved {h : Log} (unreserved : ∀ entry ∈ h, reserves entry = false) : Blamed h := by
  intro reserved
  obtain ⟨entry,inside,reserved⟩ := reserved
  rw [unreserved entry inside] at reserved
  cases reserved

/-- The part of `execute` that comes before the reservation. -/
private def Early {α : Type} (p : Trade α) (h : Log) : Prop :=
  p.wp (fun _ _ => True) (fun _ after => ∀ entry ∈ after, reserves entry = false) (fun _ => Blamed) h

private theorem early_call (op : Op) {h : Log} (unreserved : ∀ entry ∈ h, reserves entry = false)
    (other : ∀ answer, reserves ⟨op,answer⟩ = false) : Early (call op) h := by
  simp only [Early,wp_call,true_and]
  refine ⟨fun value => ?_,fun error => blamed_failed op error h⟩
  simpa using ⟨other _,unreserved⟩

/-- A part of `execute` that throws only where an effect fails. -/
private def Late {α : Type} (p : Trade α) : Prop :=
  ∀ h, p.wp (fun _ _ => True) (fun _ _ => True) (fun _ => Blamed) h

private theorem late_call (op : Op) : Late (call op) := by
  intro h
  simp only [wp_call,implies_true,true_and]
  exact fun error => blamed_failed op error h

private theorem Late.then {α β : Type} {p : Trade α} {f : α → Trade β} (first : Late p) (rest : ∀ value, Late (f value)) :
    Late (p >>= f) := by
  intro h
  rw [wp_bind]
  exact wp_mono p (first h) (fun value h _ => rest value h) fun _ _ => id

private theorem Early.then {α β : Type} {p : Trade α} {f : α → Trade β} {h : Log} (first : Early p h)
    (rest : ∀ value h, (∀ entry ∈ h, reserves entry = false) →
      (f value).wp (fun _ _ => True) (fun _ _ => True) (fun _ => Blamed) h) :
    (p >>= f).wp (fun _ _ => True) (fun _ _ => True) (fun _ => Blamed) h := by
  rw [wp_bind]
  exact wp_mono p first rest fun _ _ => id

private theorem early_reject {φ : Prop} [Decidable φ] (error : String) {h : Log}
    (unreserved : ∀ entry ∈ h, reserves entry = false) : Early (reject φ error) h := by
  simp only [Early,wp_reject]
  exact ⟨fun _ => blamed_unreserved unreserved,fun _ => unreserved⟩

private theorem early_ofOption {α : Type} (value : Option α) (error : String) {h : Log}
    (unreserved : ∀ entry ∈ h, reserves entry = false) : Early (ofOption value error) h := by
  simp only [Early,wp_ofOption]
  exact ⟨fun _ _ => unreserved,fun _ => blamed_unreserved unreserved⟩

private theorem early_resimulate (q : Quote) {h : Log} (unreserved : ∀ entry ∈ h, reserves entry = false) :
    Early (resimulate q) h := by
  unfold resimulate
  cases q.request with
  | some request =>
    rw [Early,wp_bind]
    apply wp_mono _ (early_call _ unreserved fun _ => rfl)
    · intro got h unreserved
      cases got with
      | evidence e => exact unreserved
      | verdict success => exact blamed_unreserved unreserved
    · exact fun _ _ => id
  | none =>
    rw [Early,wp_bind]
    apply wp_mono _ (early_call _ unreserved fun _ => rfl)
    · intro got h unreserved
      rcases got with e | (_ | _)
      · exact blamed_unreserved unreserved
      · exact blamed_unreserved unreserved
      · exact unreserved
    · exact fun _ _ => id

private theorem executeLive_blamed (quoteId : String) (q : Quote) (evidence : Option SimulationEvidence) (o : ExecuteOptions)
    (h : Log) (unreserved : ∀ entry ∈ h, reserves entry = false) :
    (executeLive c quoteId q evidence o).wp (fun _ _ => True) (fun _ _ => True) (fun _ => Blamed) h := by
  unfold executeLive
  refine (early_ofOption _ _ unreserved).then fun request h unreserved => ?_
  refine (early_ofOption _ _ unreserved).then fun evidence h unreserved => ?_
  refine (early_reject _ unreserved).then fun _ h unreserved => ?_
  refine (early_call _ unreserved fun _ => rfl).then fun height h unreserved => ?_
  refine (early_reject _ unreserved).then fun _ h unreserved => ?_
  have assessed : Early (optionally c.risk (call (Op.assess q request evidence))) h := by
    unfold optionally
    split
    · rw [Early,wp_bind]
      exact wp_mono _ (early_call _ unreserved fun _ => rfl) (fun _ _ => id) fun _ _ => id
    · exact unreserved
  refine assessed.then fun risk h unreserved => ?_
  refine (early_reject _ unreserved).then fun _ h _ => ?_
  refine Late.then ?_ (fun reservationId => (late_call _).then fun x => ?_) h
  · unfold optionally
    split
    · exact (late_call _).then fun _ _ => trivial
    · exact fun _ => trivial
  · split
    · refine Late.then ?_ fun _ => late_call _
      unfold onlyIf
      split
      · exact (late_call _).then fun _ _ => trivial
      · exact fun _ => trivial
    · exact late_call _

/-- A call that has reserved throws only where an effect after that has failed. -/
theorem execute_blamed (quoteId : String) (o : ExecuteOptions) :
    (execute c quoteId o).wp (fun _ _ => True) (fun _ _ => True) (fun _ => Blamed) [] := by
  have early : ∀ entry ∈ ([] : Log), reserves entry = false := by simp
  refine (early_call _ early fun _ => rfl).then fun old h unreserved => ?_
  cases old with
  | some old => trivial
  | none =>
    unfold executeNew
    refine (early_call _ unreserved fun _ => rfl).then fun found h unreserved => ?_
    refine (early_ofOption _ _ unreserved).then fun q h unreserved => ?_
    refine (early_call _ unreserved fun _ => rfl).then fun now h unreserved => ?_
    refine (early_reject _ unreserved).then fun _ h unreserved => ?_
    refine (early_reject _ unreserved).then fun _ h unreserved => ?_
    refine (early_resimulate q unreserved).then fun evidence h unreserved => ?_
    split
    · exact late_call _ h
    · exact executeLive_blamed c quoteId q evidence o h unreserved

end Rules

/-- The execution gives its reservation back, or was denied while nothing counted. -/
def frees (e r : String) : Entry Op Op.Ans String → Bool
  | ⟨.release name id,.ok _⟩ => name = e ∧ id = r
  | ⟨.transition name _ patch,.ok _⟩ => name = e ∧ patch.state = some .denied
  | _ => false

/-- The id is reserved once more, or committed for another execution. -/
def renews (e r : String) : Entry Op Op.Ans String → Bool
  | ⟨.reserve _ _ _,.ok id⟩ => id = r
  | ⟨.commit name id,.ok _⟩ => name ≠ e ∧ id = some r
  | _ => false

/-- The id has been renewed since the execution gave it back. -/
def Reused (e r : String) : Log → Prop
  | [] => False
  | entry :: h => (renews e r entry = true ∧ ∃ freed ∈ h, frees e r freed = true) ∨ Reused e r h

instance Reused.decidable (e r : String) : (h : Log) → Decidable (Reused e r h)
  | [] => inferInstanceAs (Decidable False)
  | entry :: h =>
    have := Reused.decidable e r h
    inferInstanceAs (Decidable ((renews e r entry = true ∧ ∃ freed ∈ h, frees e r freed = true) ∨ Reused e r h))

section Ledger
variable {web3 : Signer.Web3} {maxReservedPerToken : String → ℤ}

/-- A row of the ledger was there before as it is, unless it has been reserved or committed. -/
private theorem row_before (choice : Choice) (op : Op) {a : Accounts} {r : String} {y : LedgerRow}
    (found : (account web3 maxReservedPerToken choice op a).2.ledger.rows.find? r = some y) :
    a.ledger.rows.find? r = some y ∨
      (∀ e, renews e r ⟨op,(account web3 maxReservedPerToken choice op a).1⟩ = true) ∨
      a.ledger.has r = true ∧ ∃ name, op = .commit name (some r) ∧
        ∃ done, (account web3 maxReservedPerToken choice op a).1 ≍ (.ok done : Except String Bool) := by
  cases op with
  | reserve quoteHash policyHash messageHash =>
    simp only [account,reserve] at found ⊢
    cases quoted : a.trade.store.findQuoteByHash quoteHash with
    | none =>
      simp only [quoted] at found
      exact .inl found
    | some q =>
      simp only [quoted] at found ⊢
      split at found
      · exact .inl found
      · rename_i spends
        rw [if_neg spends]
        obtain before | fresh := ReservationLedger.find?_reserveWithin found
        · exact .inl before
        · refine .inr (.inl fun e => ?_)
          simp only [fresh.1,if_true,renews]
          simpa using fresh.2
  | commit name id =>
    cases id with
    | none => exact .inl found
    | some id =>
      simp only [account,commit] at found ⊢
      split at found
      · exact .inl found
      · rename_i spends
        by_cases same : id = r
        · subst same
          rw [if_neg spends]
          refine .inr (.inr ⟨?_,name,rfl,_,HEq.rfl⟩)
          unfold ReservationLedger.has
          rcases a.ledger.commit_cases id a.seconds with kept | ⟨old,there,_,_⟩
          · rw [kept] at found
            rw [found]
            rfl
          · rw [there]
            rfl
        · rw [ReservationLedger.find?_commit_of_ne same] at found
          exact .inl found
  | release name id =>
    simp only [account,release] at found
    split at found
    · exact .inl found
    · rw [ReservationLedger.find?_release] at found
      exact .inl (Option.filter_eq_some_iff.mp found).1
  | _ => exact .inl found

private theorem has_before (choice : Choice) (op : Op) {a : Accounts} {r : String}
    (there : (account web3 maxReservedPerToken choice op a).2.ledger.has r = true) :
    a.ledger.has r = true ∨ ∀ e, renews e r ⟨op,(account web3 maxReservedPerToken choice op a).1⟩ = true := by
  obtain ⟨y,found⟩ := Option.isSome_iff_exists.mp there
  rcases row_before choice op found with before | renewed | ⟨there,_⟩
  · left
    rw [ReservationLedger.has,before]
    rfl
  · exact .inr renewed
  · exact .inl there

private theorem counts_before (choice : Choice) (op : Op) {a : Accounts} {r : String}
    (counts : (account web3 maxReservedPerToken choice op a).2.ledger.Counts r
      (account web3 maxReservedPerToken choice op a).2.seconds) :
    a.ledger.Counts r a.seconds ∨ (∀ e, renews e r ⟨op,(account web3 maxReservedPerToken choice op a).1⟩ = true) ∨
      ∃ name, op = .commit name (some r) ∧
        ∃ done, (account web3 maxReservedPerToken choice op a).1 ≍ (.ok done : Except String Bool) := by
  obtain ⟨y,found,alive⟩ := counts
  have seconds : (account web3 maxReservedPerToken choice op a).2.seconds = a.seconds := by
    unfold Accounts.seconds
    rw [account_clock]
  rw [seconds] at alive
  rcases row_before choice op found with before | renewed | ⟨_,committed⟩
  · exact .inl ⟨y,before,alive⟩
  · exact .inr (.inl renewed)
  · exact .inr (.inr committed)

private theorem release_frees {a : Accounts} {r : String} (uncommitted : ¬a.ledger.Committed r)
    (spends : r ∈ a.revokeReservations → a.ledger.has r = false) : (release r a).2.ledger.has r = false := by
  unfold release
  split
  · rename_i revokes
    exact spends revokes
  · unfold ReservationLedger.has
    rw [ReservationLedger.find?_release]
    cases found : a.ledger.rows.find? r with
    | none => rfl
    | some y =>
      have named : y.id = r := Table.key_of_find? found
      have reserved : y.state = .reserved := by
        cases state : y.state with
        | reserved => rfl
        | committed => exact absurd ⟨y,found,state⟩ uncommitted
      simp [named,reserved]

end Ledger

/-- The step keeps nothing reserved for an execution that is over: a denial comes once the
reservation has lapsed, a release while it is not committed. -/
def Yields (a : Accounts) : Op → Prop
  | .transition e _ patch => patch.state = some .denied →
      ∀ x ∈ a.trade.row e, ∀ r ∈ x.reservationId, ¬a.ledger.Counts r a.seconds
  | .release _ r => ¬a.ledger.Committed r ∧ (r ∈ a.revokeReservations → a.ledger.has r = false)
  | _ => True

instance (a : Accounts) : (op : Op) → Decidable (Yields a op)
  | .transition e _ patch => inferInstanceAs (Decidable (patch.state = some .denied →
      ∀ x ∈ a.trade.row e, ∀ r ∈ x.reservationId, ¬a.ledger.Counts r a.seconds))
  | .release _ r =>
    inferInstanceAs (Decidable (¬a.ledger.Committed r ∧ (r ∈ a.revokeReservations → a.ledger.has r = false)))
  | .byIdempotency _ | .getQuote _ | .getExecution _ | .list _ | .create _ _ | .now | .simulate _ | .simulateIntent _ _
  | .blockHeight | .status _ | .broadcast _ _ | .approvalRequest _ _ _ _ | .approvalGet _ | .approvalDecide _ _
  | .approvalConsume _ _ | .assess _ _ _ | .reserve _ _ _ | .valid _ | .commit _ _ | .issue _ _ _ _ | .sign _ _ _
  | .result _ _ _ => .isTrue trivial

/-- What a call was told of the row of `e` is no news from before it was made. -/
def Informed (e : String) (a : Accounts) (h : Log) : Prop :=
  (∀ x, Known e h x → (a.trade.row e).isSome) ∧ ∀ rest, h = ⟨.getExecution e,.ok none⟩ :: rest → ∀ x, ¬Known e rest x

structure Returned (c : Deployment) (e : String) (p : Spending) : Prop where
  steady : Steady e (p.view (·.trade))
  named : ∀ x, p.state.trade.row e = some x → x.reservationId ≠ some "" ∧ (c.reservations = false → x.reservationId = none)
  pinned : ∀ x, ⟨.getExecution e,.ok (some x)⟩ ∈ p.trace →
    ∃ y, p.state.trade.row e = some y ∧ y.reservationId = x.reservationId
  freed : ∀ r done, ⟨.release e r,.ok done⟩ ∈ p.trace → p.state.ledger.has r = true → Reused e r p.trace
  ended : ∀ x r, p.state.trade.row e = some x → x.reservationId = some r → x.state = .expired ∨ x.state = .dropped →
    ∃ done, ⟨.release e r,.ok done⟩ ∈ p.trace
  denied : ∀ x r, p.state.trade.row e = some x → x.reservationId = some r → x.state = .denied →
    (∃ entry ∈ p.trace, frees e r entry = true) ∧ (p.state.ledger.Counts r p.state.seconds → Reused e r p.trace)
  informed : System.Learned (Informed e) p

private theorem returned_initial (c : Deployment) (e : String) (clock : ℤ) (ledger : ReservationLedger) :
    Returned c e (Config.initial (Accounts.initial clock ledger)) where
  steady := steady_initial e clock
  named x found := by simp [Config.initial,Accounts.initial] at found
  pinned x member := by simp [Config.initial] at member
  freed r done member := by simp [Config.initial] at member
  ended x r found := by simp [Config.initial,Accounts.initial] at found
  denied x r found := by simp [Config.initial,Accounts.initial] at found
  informed i t found := by simp [Config.initial] at found

section Steps
variable {web3 : Signer.Web3} {maxReservedPerToken : String → ℤ} {c : Deployment} {e : String} {p : Spending}

private theorem returned_idle {p' : Spending} (returned : Returned c e p) (steady : Steady e (p'.view (·.trade)))
    (trace : p'.trace = p.trace) (row : p'.state.trade.row e = p.state.trade.row e)
    (ledger : p'.state.ledger = p.state.ledger) (later : p.state.seconds ≤ p'.state.seconds)
    (informed : System.Learned (Informed e) p') : Returned c e p' := by
  refine ⟨steady,?_,?_,?_,?_,?_,informed⟩
  · rw [row]
    exact returned.named
  · rw [trace,row]
    exact returned.pinned
  · rw [trace,ledger]
    exact returned.freed
  · rw [trace,row]
    exact returned.ended
  · rw [trace,row,ledger]
    intro x r found reserved state
    obtain ⟨freed,reused⟩ := returned.denied x r found reserved state
    refine ⟨freed,fun counts => reused ?_⟩
    obtain ⟨y,there,alive⟩ := counts
    exact ⟨y,there,alive.imp_right fun alive => by omega⟩

variable (web3) (maxReservedPerToken) in
private theorem row_kept (choice : Choice) (op : Op) {a : Accounts} {x : Execution} (found : a.trade.row e = some x) :
    ∃ y, (account web3 maxReservedPerToken choice op a).2.trade.row e = some y ∧ y.reservationId = x.reservationId := by
  cases account_row web3 maxReservedPerToken e choice op a with
  | same row => exact ⟨x,row.trans found,rfl⟩
  | created absent row => simp [absent] at found
  | moved there expected row =>
    cases Option.some.inj (there.symm.trans found)
    exact ⟨_,row,rfl⟩

variable (web3) (maxReservedPerToken) in
private theorem known_account {choice : Choice} {op : Op} {a : Accounts} {h : Log} {x : Execution}
    (known : Known e (⟨op,(account web3 maxReservedPerToken choice op a).1⟩ :: h) x) :
    Known e h x ∨ (account web3 maxReservedPerToken choice op a).2.trade.row e = some x := by
  obtain ⟨choice',same⟩ := account_refines web3 maxReservedPerToken choice op a
  have current : Known e (⟨op,(handle choice' op a.trade).1⟩ :: h) x →
      Known e h x ∨ (handle choice' op a.trade).2.row e = some x := known_current
  rw [same] at current
  exact current known

private theorem elapse_row (choice : Choice) (s : State) (e : String) : (elapse choice s).row e = s.row e := by
  unfold elapse State.row
  dsimp only
  split
  · split <;> rfl
  · rfl

private theorem row_step (event : Event Call Choice) {x : Execution} (found : p.state.trade.row e = some x) :
    ∃ y, ((accounting web3 maxReservedPerToken c).step p event).state.trade.row e = some y ∧
      y.reservationId = x.reservationId := by
  cases event with
  | start call => exact ⟨x,found,rfl⟩
  | crash => exact ⟨x,found,rfl⟩
  | ambient choice => exact ⟨x,(elapse_row choice p.state.trade e).trans found,rfl⟩
  | perform i choice =>
    rcases (accounting web3 maxReservedPerToken c).perform_cases p i choice with ⟨op,next,history,here⟩ | idle
    · rw [(accounting web3 maxReservedPerToken c).perform_eq here]
      exact row_kept web3 maxReservedPerToken choice op found
    · rw [idle]
      exact ⟨x,found,rfl⟩

variable (web3) (maxReservedPerToken) in
private theorem informed_step (event : Event Call Choice) (returned : Returned c e p) :
    System.Learned (Informed e) ((accounting web3 maxReservedPerToken c).step p event) := by
  refine (accounting web3 maxReservedPerToken c).learned_step returned.informed ?_ ?_ ?_
  · intro a
    refine ⟨?_,fun rest same => by cases same⟩
    intro x known
    cases known with
    | own read => cases read
    | named same read => cases read
    | listed same read member => cases read
  · intro history good
    refine ⟨?_,good.2⟩
    intro x known
    obtain ⟨y,found⟩ := Option.isSome_iff_exists.mp (good.1 x known)
    obtain ⟨z,row,_⟩ := row_step event found
    rw [row]
    rfl
  · intro i choice op next history performed here good
    subst performed
    rw [(accounting web3 maxReservedPerToken c).perform_eq here] at good ⊢
    refine ⟨?_,?_⟩
    · intro x known
      rcases known_account web3 maxReservedPerToken known with before | now
      · exact good.1 x before
      · change ((account web3 maxReservedPerToken choice op p.state).2.trade.row e).isSome
        rw [now]
        rfl
    · intro rest same x known
      obtain ⟨entry,rfl⟩ := List.cons.inj same
      obtain ⟨rfl,answered⟩ := Sigma.mk.inj entry
      have absent : p.state.trade.row e = none := Except.ok.inj (eq_of_heq answered)
      have there := good.1 x known
      change (p.state.trade.row e).isSome at there
      rw [absent] at there
      cases there

section Perform
variable {i : ℕ} {op : Op} {next : Except String op.Ans → Trade Unit} {history : Log}

private theorem pinned_read (returned : Returned c e p) (choice : Choice) {x : Execution}
    (member : ⟨.getExecution e,.ok (some x)⟩ ∈ (⟨op,(account web3 maxReservedPerToken choice op p.state).1⟩ :: p.trace : Log)) :
    ∃ y, (account web3 maxReservedPerToken choice op p.state).2.trade.row e = some y ∧ y.reservationId = x.reservationId := by
  obtain entry | before := List.mem_cons.mp member
  · obtain ⟨rfl,answered⟩ := Sigma.mk.inj entry
    exact ⟨x,Except.ok.inj (eq_of_heq answered).symm,rfl⟩
  · obtain ⟨y,found,same⟩ := returned.pinned x before
    obtain ⟨z,row,kept⟩ := row_kept web3 maxReservedPerToken choice op found
    exact ⟨z,row,kept.trans same⟩

private theorem named_perform (returned : Returned c e p) (choice : Choice) (clearing : clears c history op) {x : Execution}
    (found : (account web3 maxReservedPerToken choice op p.state).2.trade.row e = some x) :
    x.reservationId ≠ some "" ∧ (c.reservations = false → x.reservationId = none) := by
  cases account_row web3 maxReservedPerToken e choice op p.state with
  | same row => exact returned.named x (row.symm.trans found)
  | created absent row =>
    cases Option.some.inj (row.symm.trans found)
    exact clearing
  | moved there expected row =>
    cases Option.some.inj (row.symm.trans found)
    have was := returned.named _ there
    exact was

private theorem freed_perform (returned : Returned c e p) (choice : Choice) (yields : Yields p.state op) {r : String}
    {done : Bool}
    (member : ⟨.release e r,.ok done⟩ ∈ (⟨op,(account web3 maxReservedPerToken choice op p.state).1⟩ :: p.trace : Log))
    (there : (account web3 maxReservedPerToken choice op p.state).2.ledger.has r = true) :
    Reused e r (⟨op,(account web3 maxReservedPerToken choice op p.state).1⟩ :: p.trace) := by
  obtain entry | before := List.mem_cons.mp member
  · obtain ⟨rfl,_⟩ := Sigma.mk.inj entry
    obtain ⟨uncommitted,spends⟩ := yields
    have gone := release_frees uncommitted spends
    change (release r p.state).2.ledger.has r = true at there
    rw [gone] at there
    cases there
  · obtain old | renewed := has_before choice op there
    · exact Or.inr (returned.freed r done before old)
    · exact .inl ⟨renewed e,_,before,by simp [frees]⟩

private theorem ended_perform (disciplined : Disciplined web3 c (p.view (·.trade))) (returned : Returned c e p) (choice : Choice)
    (here : p.threads i = some ⟨.perform op next,history⟩) (clearing : clears c history op) {x : Execution} {r : String}
    (found : (account web3 maxReservedPerToken choice op p.state).2.trade.row e = some x) (reserved : x.reservationId = some r)
    (state : x.state = .expired ∨ x.state = .dropped) :
    ∃ done, ⟨.release e r,.ok done⟩ ∈ (⟨op,(account web3 maxReservedPerToken choice op p.state).1⟩ :: p.trace : Log) := by
  have older (y : Execution) (was : p.state.trade.row e = some y) (own : y.reservationId = some r)
      (gone : y.state = .expired ∨ y.state = .dropped) :
      ∃ done, ⟨.release e r,.ok done⟩ ∈ (⟨op,(account web3 maxReservedPerToken choice op p.state).1⟩ :: p.trace : Log) := by
    obtain ⟨done,released⟩ := returned.ended y r was own gone
    exact ⟨done,List.mem_cons_of_mem _ released⟩
  have recorded : history ⊆ p.trace := disciplined.recorded here
  cases account_row web3 maxReservedPerToken e choice op p.state with
  | same row => exact older x (row.symm.trans found) reserved state
  | created absent row =>
    cases Option.some.inj (row.symm.trans found)
    have fresh := disciplined.allowed here
    rcases fresh with rfl | rfl <;> rcases state with state | state <;> cases state
  | moved there expected row =>
    rename_i states patch old
    cases Option.some.inj (row.symm.trans found)
    cases target : patch.state with
    | none =>
      refine older old there reserved ?_
      simpa [Execution.patched,target] using state
    | some s =>
      have ends : patch.state = some .expired ∨ patch.state = some .dropped := by
        simpa [Execution.patched,target] using state
      obtain ⟨y,read,released⟩ | ⟨rest,y,newest,known⟩ := clearing ends
      · obtain ⟨z,row',own⟩ := returned.pinned y (recorded read)
        cases Option.some.inj (there.symm.trans row')
        obtain ⟨nonempty,reserving⟩ := returned.named old there
        have mine : y.reservationId = some r := own.symm.trans reserved
        have there_ : present y.reservationId = some r := by
          rw [present_eq_some]
          refine ⟨mine,?_⟩
          intro empty
          subst empty
          exact nonempty reserved
        have on : c.reservations = true := by
          by_contra off
          have none_ := reserving (by simpa using off)
          have own_ : old.reservationId = some r := reserved
          rw [none_] at own_
          cases own_
        obtain ⟨done,done_⟩ := released r there_ on
        exact ⟨done,List.mem_cons_of_mem _ (recorded done_)⟩
      · exact absurd known ((returned.informed i _ here).2 rest newest y)

private theorem denied_stays (disciplined : Disciplined web3 c (p.view (·.trade))) (returned : Returned c e p) (choice : Choice)
    (here : p.threads i = some ⟨.perform op next,history⟩) {x : Execution} {r : String}
    (found : p.state.trade.row e = some x) (reserved : x.reservationId = some r) (state : x.state = .denied) :
    (∃ entry ∈ (⟨op,(account web3 maxReservedPerToken choice op p.state).1⟩ :: p.trace : Log), frees e r entry = true) ∧
      ((account web3 maxReservedPerToken choice op p.state).2.ledger.Counts r
          (account web3 maxReservedPerToken choice op p.state).2.seconds →
        Reused e r (⟨op,(account web3 maxReservedPerToken choice op p.state).1⟩ :: p.trace)) := by
  obtain ⟨freed,reused⟩ := returned.denied x r found reserved state
  refine ⟨?_,?_⟩
  · obtain ⟨entry,inside,frees⟩ := freed
    exact ⟨entry,List.mem_cons_of_mem _ inside,frees⟩
  · intro counts
    rcases counts_before choice op counts with before | renewed | ⟨name,rfl,done,answered⟩
    · exact Or.inr (reused before)
    · exact .inl ⟨renewed e,freed⟩
    · have other : name ≠ e := by
        intro same
        subst same
        obtain ⟨authorizationId,messageHash,signature,limit,y,persisted,_⟩ := disciplined.allowed here
        obtain ⟨z,there,known⟩ := returned.steady.stays _ (disciplined.recorded here persisted) signature .persisted
        cases Option.some.inj (found.symm.trans there)
        have sent := (returned.steady.signed x found).mp (by rw [known]; rfl)
        rw [state] at sent
        cases sent
      refine .inl ⟨?_,freed⟩
      rw [eq_of_heq answered]
      simpa [renews] using other

private theorem moved_returns {choice : Choice} {states : List TradeState} {patch : Patch} {a : Accounts} {old : Execution}
    (found : a.trade.row e = some old)
    (row : (account web3 maxReservedPerToken choice (.transition e states patch) a).2.trade.row e =
      some (old.patched patch a.trade.clock)) :
    ∃ x, (account web3 maxReservedPerToken choice (.transition e states patch) a).1 = .ok x := by
  cases answered : (account web3 maxReservedPerToken choice (.transition e states patch) a).1 with
  | ok x => exact ⟨x,rfl⟩
  | error error =>
    simp only [account,handle] at answered row
    rcases a.trade.store.transition_cases e states patch none a.trade.clock with
      ⟨_,refused⟩ | ⟨_,_,_,moved⟩
    · rw [refused] at row
      have same : old = old.patched patch a.trade.clock := Option.some.inj (found.symm.trans row)
      have version := congrArg Execution.version same
      simp [Execution.patched] at version
    · rw [moved] at answered
      cases answered

private theorem denied_perform (disciplined : Disciplined web3 c (p.view (·.trade))) (returned : Returned c e p) (choice : Choice)
    (here : p.threads i = some ⟨.perform op next,history⟩) (yields : Yields p.state op) {x : Execution} {r : String}
    (found : (account web3 maxReservedPerToken choice op p.state).2.trade.row e = some x) (reserved : x.reservationId = some r)
    (state : x.state = .denied) :
    (∃ entry ∈ (⟨op,(account web3 maxReservedPerToken choice op p.state).1⟩ :: p.trace : Log), frees e r entry = true) ∧
      ((account web3 maxReservedPerToken choice op p.state).2.ledger.Counts r
          (account web3 maxReservedPerToken choice op p.state).2.seconds →
        Reused e r (⟨op,(account web3 maxReservedPerToken choice op p.state).1⟩ :: p.trace)) := by
  cases account_row web3 maxReservedPerToken e choice op p.state with
  | same row => exact denied_stays disciplined returned choice here (row.symm.trans found) reserved state
  | created absent row =>
    cases Option.some.inj (row.symm.trans found)
    have fresh := disciplined.allowed here
    rcases fresh with rfl | rfl <;> cases state
  | moved there expected row =>
    rename_i states patch old
    cases Option.some.inj (row.symm.trans found)
    cases target : patch.state with
    | none =>
      have was : old.state = .denied := by simpa [Execution.patched,target] using state
      exact denied_stays disciplined returned choice here there reserved was
    | some s =>
      have denies : patch.state = some .denied := by simpa [Execution.patched,target] using state
      obtain ⟨y,answered⟩ := moved_returns there row
      refine ⟨⟨_,List.mem_cons_self,?_⟩,fun counts => ?_⟩
      · rw [answered]
        simp [frees,denies]
      · exact absurd counts (yields denies old there r reserved)

end Perform

def Yielding (p : Spending) : Event Call Choice → Prop
  | .perform i _ =>
    match p.threads i with
    | some ⟨.perform op _,_⟩ => Yields p.state op
    | _ => True
  | _ => True

instance (p : Spending) (event : Event Call Choice) : Decidable (Yielding p event) := by
  match event with
  | .perform i _ =>
    unfold Yielding
    dsimp only
    match p.threads i with
    | some ⟨.perform op _,_⟩ => exact inferInstanceAs (Decidable (Yields p.state op))
    | some ⟨.pure _,_⟩ | some ⟨.throw _,_⟩ | none => exact .isTrue trivial
  | .start _ | .ambient _ | .crash => exact .isTrue trivial

private theorem returned_step (event : Event Call Choice) (disciplined : Disciplined web3 c (p.view (·.trade)))
    (cleared : System.Obeys (clears c) (fun _ => True) p) (yielding : Yielding p event) (returned : Returned c e p) :
    Returned c e ((accounting web3 maxReservedPerToken c).step p event) := by
  have steady : Steady e (((accounting web3 maxReservedPerToken c).step p event).view (·.trade)) := by
    obtain ⟨event',same⟩ := (accounting_refines web3 maxReservedPerToken c).step p event
    rw [← same]
    exact steady_step disciplined event' returned.steady
  have informed := informed_step web3 maxReservedPerToken event returned
  cases event with
  | start call => exact returned_idle returned steady rfl rfl rfl (Int.le_refl _) informed
  | crash => exact returned_idle returned steady rfl rfl rfl (Int.le_refl _) informed
  | ambient choice =>
    refine returned_idle returned steady rfl (elapse_row choice p.state.trade e) rfl ?_ informed
    simp only [System.step,accounting,Accounts.seconds,elapse]
    omega
  | perform i choice =>
    rcases (accounting web3 maxReservedPerToken c).perform_cases p i choice with ⟨op,next,history,here⟩ | idle
    · have yields : Yields p.state op := by simpa only [Yielding,here] using yielding
      have clearing := cleared.allowed here
      rw [(accounting web3 maxReservedPerToken c).perform_eq here] at steady informed ⊢
      exact {
        steady, informed
        named := fun x found => named_perform returned choice clearing found
        pinned := fun x member => pinned_read returned choice member
        freed := fun r done member there => freed_perform returned choice yields member there
        ended := fun x r found reserved state => ended_perform disciplined returned choice here clearing found reserved state
        denied := fun x r found reserved state => denied_perform disciplined returned choice here yields found reserved state }
    · rw [idle]
      exact returned

end Steps

section Runs
variable (web3 : Signer.Web3) (maxReservedPerToken : String → ℤ) (c : Deployment)

/-- After a call has reserved, none of its effects fails. -/
def Unbroken (p : Spending) : Event Call Choice → Prop
  | .perform i choice =>
    match p.threads i with
    | some ⟨.perform op _,h⟩ => (∃ entry ∈ h, reserves entry = true) →
        fails ⟨op,(account web3 maxReservedPerToken choice op p.state).1⟩ = false
    | _ => True
  | _ => True

instance (p : Spending) (event : Event Call Choice) : Decidable (Unbroken web3 maxReservedPerToken p event) := by
  match event with
  | .perform i choice =>
    unfold Unbroken
    dsimp only
    match p.threads i with
    | some ⟨.perform op _,h⟩ =>
      exact inferInstanceAs (Decidable ((∃ entry ∈ h, reserves entry = true) →
        fails ⟨op,(account web3 maxReservedPerToken choice op p.state).1⟩ = false))
    | some ⟨.pure _,_⟩ | some ⟨.throw _,_⟩ | none => exact .isTrue trivial
  | .start _ | .ambient _ | .crash => exact .isTrue trivial

/-- Whatever failed in a call, failed before it had reserved. -/
def Smooth (h : Log) : Prop :=
  ∀ newer entry rest, h = newer ++ entry :: rest → fails entry = true → ∀ older ∈ rest, reserves older = false

private theorem smooth_step {p : Spending} (event : Event Call Choice) (unbroken : Unbroken web3 maxReservedPerToken p event)
    (smooth : System.Learned (fun _ => Smooth) p) :
    System.Learned (fun _ => Smooth) ((accounting web3 maxReservedPerToken c).step p event) := by
  refine (accounting web3 maxReservedPerToken c).learned_step smooth ?_ (fun _ => id) ?_
  · intro _ newer entry rest empty
    simp at empty
  · intro i choice op next history performed here good newer entry rest split failed
    subst performed
    simp only [Unbroken,here] at unbroken
    cases newer with
    | nil =>
      obtain ⟨rfl,rfl⟩ := List.cons.inj split
      intro older inside
      by_contra reserved
      have fine := unbroken ⟨older,inside,by simpa using reserved⟩
      change fails ⟨op,(account web3 maxReservedPerToken choice op p.state).1⟩ = true at failed
      rw [fine] at failed
      cases failed
    | cons newest newer =>
      obtain ⟨_,split⟩ := List.cons.inj split
      exact good newer entry rest split failed

theorem capital_returned (clock : ℤ) (ledger : ReservationLedger) (events : List (Event Call Choice))
    (meets : (accounting web3 maxReservedPerToken c).Meets
      (fun p event => Yielding p event ∧ Unbroken web3 maxReservedPerToken p event)
      (Config.initial (Accounts.initial clock ledger)) events) :
    let p := (accounting web3 maxReservedPerToken c).run (Config.initial (Accounts.initial clock ledger)) events
    (∀ e x, p.state.trade.row e = some x → x.state.closed = true → ∀ r ∈ x.reservationId,
      p.state.ledger.Counts r p.state.seconds → Reused e r p.trace) ∧
    ∀ i t quoteId o error, p.threads i = some t → Ran (execute c quoteId o) t.history (.throw error) →
      ∀ entry ∈ t.history, reserves entry = false := by
  intro p
  refine ⟨?_,?_⟩
  · intro e x found closed r reserved counts
    have kept := (accounting web3 maxReservedPerToken c).run_induction (program_clear web3 c)
      (fun p event => Yielding p event ∧ Unbroken web3 maxReservedPerToken p event)
      (fun p => System.Obeys (allow web3 c) (fun _ => True) p ∧ Returned c e p)
      (fun p event cleared condition kept =>
        ⟨(accounting web3 maxReservedPerToken c).obeys_step (program_safe web3 c) p event kept.1,
          returned_step event (fun i t found => kept.1 i t found) cleared condition.1 kept.2⟩)
      (System.obeys_initial _) ⟨System.obeys_initial _,returned_initial c e clock ledger⟩ events meets
    have returned := kept.2.2
    cases state : x.state with
    | denied => exact (returned.denied x r found reserved state).2 counts
    | expired =>
      obtain ⟨done,released⟩ := returned.ended x r found reserved (.inl state)
      exact returned.freed r done released (ReservationLedger.has_of_counts counts)
    | dropped =>
      obtain ⟨done,released⟩ := returned.ended x r found reserved (.inr state)
      exact returned.freed r done released (ReservationLedger.has_of_counts counts)
    | _ =>
      rw [state] at closed
      cases closed
  · intro i t quoteId o error found ran entry inside
    have smooth := ((accounting web3 maxReservedPerToken c).run_induction (program_clear web3 c)
      (fun p event => Yielding p event ∧ Unbroken web3 maxReservedPerToken p event)
      (System.Learned fun _ => Smooth)
      (fun p event _ condition smooth => smooth_step web3 maxReservedPerToken c event condition.2 smooth)
      (System.obeys_initial _) (fun i t found => by simp [Config.initial] at found) events meets).2
    by_contra reserved
    have blamed := ran.wp (execute_blamed c quoteId o)
    obtain ⟨newest,rest,split,failed,older,member,reserves⟩ := blamed ⟨entry,inside,by simpa using reserved⟩
    have none_ := smooth i t found [] newest rest split failed older member
    rw [none_] at reserves
    cases reserves

end Runs

namespace Sample

def deniedReply : (op : Op) → Except String op.Ans
  | .approvalGet _ => .ok (some .denied)
  | op => reply op

def denial : List (Event Call Choice) :=
  [.ambient { quote := some quote },.start (.execute "q" ⟨"key","actor",some false⟩)] ++ steps 0 9 ++
    [.start (.deny "e" "operator" (some ⟨"operator",.deny,"challenge","nonce",0,none,none,none⟩))] ++
    stepsWith deniedReply 1 5

/-- The blockhash of an approved execution runs out before it is submitted. -/
def expiry : List (Event Call Choice) :=
  approval ++ [.start (.submit "e")] ++ stepsWith forgottenReply 2 8

/-- Two quotes are executed at once under one idempotency key. -/
def collision : List (Event Call Choice) :=
  [.ambient { quote := some quote },.ambient { quote := some { quote with id := "q2", quoteHash := "quote2" } },
    .start (.execute "q" ⟨"key","actor",some false⟩),.start (.execute "q2" ⟨"key","actor",some false⟩)] ++
    steps 1 1 ++ steps 0 9 ++ steps 1 8

def collided : Spending := (accounting hashing (fun _ => 2000) deployment).run books collision

def thrown : Thread Op Op.Ans String → Bool
  | ⟨.throw _,_⟩ => true
  | _ => false

end Sample

open Sample in
theorem capital_returned_expiry :
    let p := spending.run books expiry
    (p.state.trade.row "e").map (·.state) = some .expired ∧
      ∀ x, p.state.trade.row "e" = some x → x.state.closed = true → ∀ r ∈ x.reservationId,
        p.state.ledger.Counts r p.state.seconds → Reused "e" r p.trace := by
  have run : spending.Meets (fun p event => Yielding p event ∧ Unbroken hashing (fun _ => 1000) p event) books expiry ∧
      ((spending.run books expiry).state.trade.row "e").map (·.state) = some .expired := by decide +kernel
  exact ⟨run.2,(capital_returned hashing (fun _ => 1000) deployment 0 (.empty 600) expiry run.1).1 "e"⟩

open Sample in
/-- The operator denies an execution and its reservation still counts; of two calls that raced
under one key, the one that throws leaves its reservation behind without an execution. -/
theorem capital_kept :
    ((spending.run books denial).state.trade.row "e").map (·.state) = some .denied ∧
    (∃ x ∈ ((spending.run books denial).state.trade.row "e").toList, ∃ r ∈ x.reservationId.toList,
      (spending.run books denial).state.ledger.Counts r (spending.run books denial).state.seconds ∧
        ¬Reused "e" r (spending.run books denial).trace) ∧
    (∃ t ∈ (collided.threads 1).toList, thrown t = true ∧ ∃ entry ∈ t.history, reserves entry = true) ∧
    ∃ y ∈ collided.state.ledger.rows.rows, collided.state.ledger.Counts y.id collided.state.seconds ∧
      ∀ x ∈ collided.state.trade.store.executions.rows, x.reservationId ≠ some y.id := by
  decide +kernel

end RatifyOs.Trading
