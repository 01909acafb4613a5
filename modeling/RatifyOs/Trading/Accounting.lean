import RatifyOs.Async.Refinement
import RatifyOs.Execution.Ledger
import RatifyOs.Trading.System
import RatifyOs.Trading.Lifecycle

/-! The reservation adapter of the deployed application: the trading system over a
reservation ledger instead of over a port that answers at will. -/
namespace RatifyOs.Trading
open Async Data RatifyOs.Execution

def utf8 (text : String) : Bytes := text.toByteArray.data.toList

/-- What is hashed for the reservation of a swap. -/
def reservationText (quoteHash messageHash : String) : Bytes :=
  utf8 "reservation-v1" ++ [0] ++ utf8 quoteHash ++ [0] ++ utf8 messageHash

def revokeReservationText (quoteHash messageHash : String) : Bytes :=
  utf8 "revoke-reservation-v1" ++ [0] ++ utf8 quoteHash ++ [0] ++ utf8 messageHash

/-- The revoke reservations are held in memory and are gone after a restart. -/
structure Accounts where
  trade : State
  ledger : ReservationLedger
  revokeReservations : List String

section Adapter
variable (web3 : Signer.Web3) (maxReservedPerToken : String → ℤ)

/-- `Math.floor(Date.now() / 1000)` -/
def Accounts.seconds (a : Accounts) : ℤ := a.trade.clock / 1000

def reserve (quoteHash messageHash : String) (a : Accounts) : Except String String × Accounts :=
  match a.trade.store.findQuoteByHash quoteHash with
  | none => (.error "reservation_quote_missing",a)
  | some q =>
    if q.side = .revoke then
      let id := web3.sha256 (revokeReservationText quoteHash messageHash)
      (.ok id,{ a with revokeReservations := id :: a.revokeReservations })
    else
      let id := web3.sha256 (reservationText quoteHash messageHash)
      let result := a.ledger.reserveWithin ⟨id,a.seconds,q.inputMint,"live",q.amountIn⟩
        (maxReservedPerToken q.inputMint) none
      (if result.1 then .ok id else .error "reservation_failed",{ a with ledger := result.2 })

def valid (id : String) (a : Accounts) : Bool := id ∈ a.revokeReservations ∨ a.ledger.has id

def commit (id : String) (a : Accounts) : Bool × Accounts :=
  if id ∈ a.revokeReservations then
    (true,{ a with revokeReservations := a.revokeReservations.filter (· ≠ id) })
  else
    let result := a.ledger.commit id a.seconds
    (result.1,{ a with ledger := result.2 })

def release (id : String) (a : Accounts) : Bool × Accounts :=
  if id ∈ a.revokeReservations then
    (true,{ a with revokeReservations := a.revokeReservations.filter (· ≠ id) })
  else
    let result := a.ledger.release id
    (result.1,{ a with ledger := result.2 })

/-- An execution without a reservation id binds `undefined` to the statement, which throws. -/
def account (choice : Choice) : (op : Op) → Accounts → Except String op.Ans × Accounts
  | .reserve quoteHash _ messageHash,a => reserve web3 maxReservedPerToken quoteHash messageHash a
  | .valid id,a => (.ok (valid id a),a)
  | .commit _ (some id),a =>
    let result := commit id a
    (.ok result.1,result.2)
  | .commit _ none,a => (.error "Provided value cannot be bound to SQLite parameter 3.",a)
  | .release _ id,a =>
    let result := release id a
    (.ok result.1,result.2)
  | op,a =>
    let result := handle choice op a.trade
    (result.1,{ a with trade := result.2 })

variable (c : Deployment)

def accounting : System Op Op.Ans String Accounts Call Choice where
  program := Call.program web3 c
  handle := account web3 maxReservedPerToken
  ambient choice a := { a with trade := elapse choice a.trade }
  restart a := { a with revokeReservations := [] }

/-- Each effect leaves the trading state to the trading system, or leaves it alone. -/
theorem account_refines (choice : Choice) (op : Op) (a : Accounts) : ∃ choice',
    handle choice' op a.trade = ((account web3 maxReservedPerToken choice op a).1,
      (account web3 maxReservedPerToken choice op a).2.trade) := by
  have untouched : ∀ quoteHash messageHash,
      (reserve web3 maxReservedPerToken quoteHash messageHash a).2.trade = a.trade := by
    intro quoteHash messageHash
    unfold reserve
    split
    · rfl
    · split <;> rfl
  cases op with
  | reserve quoteHash policyHash messageHash =>
    obtain ⟨choice',same⟩ := exists_reply
      (account web3 maxReservedPerToken choice (.reserve quoteHash policyHash messageHash) a).1
    exact ⟨choice',by simp [handle,account,same,untouched]⟩
  | valid id =>
    obtain ⟨choice',same⟩ := exists_reply (account web3 maxReservedPerToken choice (.valid id) a).1
    exact ⟨choice',by simp [handle,account,same]⟩
  | commit e id =>
    cases id with
    | none =>
      obtain ⟨choice',same⟩ := exists_reply (account web3 maxReservedPerToken choice (.commit e none) a).1
      exact ⟨choice',by simp [handle,account,same]⟩
    | some id =>
      obtain ⟨choice',same⟩ := exists_reply (account web3 maxReservedPerToken choice (.commit e (some id)) a).1
      refine ⟨choice',?_⟩
      have kept : (commit id a).2.trade = a.trade := by
        unfold commit
        split <;> rfl
      simp [handle,account,same,kept]
  | release e id =>
    obtain ⟨choice',same⟩ := exists_reply (account web3 maxReservedPerToken choice (.release e id) a).1
    refine ⟨choice',?_⟩
    have kept : (release id a).2.trade = a.trade := by
      unfold release
      split <;> rfl
    simp [handle,account,same,kept]
  | _ => exact ⟨choice,rfl⟩

theorem accounting_refines : Refinement (accounting web3 maxReservedPerToken c) (system web3 c) (·.trade) where
  program _ := rfl
  handle choice op a := account_refines web3 maxReservedPerToken choice op a
  ambient choice _ := ⟨choice,rfl⟩
  restart _ := rfl

end Adapter

/-! Executions against the reservation ledger: a spend that may be under way is counted,
and a spend that landed is committed. -/

/-- The states of a spend that may be on its way. -/
def TradeState.held : TradeState → Bool
  | .signing | .submitting | .reconciliationRequired => true
  | .awaitingApproval | .approved | .dryRun | .broadcast | .confirmed | .finalized | .failed | .denied
  | .expired | .dropped => false

def TradeState.landed : TradeState → Bool
  | .broadcast | .confirmed | .finalized => true
  | .awaitingApproval | .approved | .dryRun | .signing | .submitting | .reconciliationRequired | .failed
  | .denied | .expired | .dropped => false

/-- The execution spends, which one that revokes a delegation does not. -/
def Swap (s : State) (x : Execution) : Prop := ∀ q ∈ s.store.getQuote x.quoteId, q.side ≠ .revoke

def Accounts.Committed (a : Accounts) (x : Execution) : Prop := ∃ id ∈ x.reservationId, a.ledger.Committed id

def Accounts.Counted (a : Accounts) (x : Execution) : Prop :=
  ∃ id ∈ x.reservationId, a.ledger.Counts id a.seconds

def Accounted (e : String) (a : Accounts) : Prop :=
  ∀ x ∈ a.trade.row e, Swap a.trade x →
    (x.state.landed = true → a.Committed x) ∧ (x.state.held = true → a.Counted x)

/-- A row becomes held only while its reservation still counts, and a row that was never
settled is found on the chain only once its reservation has been committed. -/
def Enters (a : Accounts) (x : Execution) (s : TradeState) : Prop :=
  (s.held = true → x.state.held = false → x.state.landed = false → a.Counted x) ∧
    (s = .confirmed ∨ s = .finalized → x.state.landed = false → a.Committed x)

/-- The effect keeps the reservation of this row. -/
def Fits (e : String) (a : Accounts) (x : Execution) : Op → Prop
  | .transition id _ patch => id = e → ∀ s ∈ patch.state, Enters a x s
  | .commit id reservationId => id = e → ∀ r ∈ reservationId, r ∉ a.revokeReservations
  | .release _ id => x.state.held = true → x.reservationId = some id → a.ledger.Committed id
  | _ => True

instance (s : State) (x : Execution) : Decidable (Swap s x) := by
  unfold Swap
  infer_instance

instance (a : Accounts) (x : Execution) : Decidable (a.Committed x) := by
  unfold Accounts.Committed
  infer_instance

instance (a : Accounts) (x : Execution) : Decidable (a.Counted x) := by
  unfold Accounts.Counted
  infer_instance

instance (a : Accounts) (x : Execution) (s : TradeState) : Decidable (Enters a x s) := by
  unfold Enters
  infer_instance

instance (e : String) (a : Accounts) (x : Execution) (op : Op) : Decidable (Fits e a x op) := by
  cases op <;> (unfold Fits; dsimp only; infer_instance)

abbrev Spending := Config Op Op.Ans String Accounts

/-- The step keeps the reservation of a swap that may be under way. -/
def Careful (e : String) (p : Spending) : Event Call Choice → Prop
  | .perform i _ =>
    match p.threads i with
    | some ⟨.perform op _,_⟩ => ∀ x ∈ p.state.trade.row e, Swap p.state.trade x → Fits e p.state x op
    | _ => True
  | .ambient choice => ∀ x ∈ p.state.trade.row e, Swap p.state.trade x → x.state.held = true →
    ∃ id ∈ x.reservationId, p.state.ledger.Counts id ((p.state.trade.clock + choice.elapsed) / 1000)
  | _ => True

instance (e : String) (p : Spending) (event : Event Call Choice) : Decidable (Careful e p event) := by
  cases event with
  | perform i choice =>
    unfold Careful
    dsimp only
    split <;> infer_instance
  | _ => unfold Careful; dsimp only; infer_instance

section Adapter
variable {web3 : Signer.Web3} {maxReservedPerToken : String → ℤ}

theorem handle_clock (choice : Choice) (op : Op) (s : State) : (handle choice op s).2.clock = s.clock := by
  cases op <;> rfl

theorem account_clock (choice : Choice) (op : Op) (a : Accounts) :
    (account web3 maxReservedPerToken choice op a).2.trade.clock = a.trade.clock := by
  obtain ⟨choice',same⟩ := account_refines web3 maxReservedPerToken choice op a
  have clock := handle_clock choice' op a.trade
  rw [same] at clock
  exact clock

variable (web3) (maxReservedPerToken) in
private theorem account_quote (choice : Choice) (op : Op) (a : Accounts) (id : String) :
    (account web3 maxReservedPerToken choice op a).2.trade.store.getQuote id = a.trade.store.getQuote id := by
  obtain ⟨choice',same⟩ := account_refines web3 maxReservedPerToken choice op a
  have quote := handle_quote choice' op a.trade id
  rw [same] at quote
  exact quote

variable (web3) (maxReservedPerToken) in
theorem account_row (e : String) (choice : Choice) (op : Op) (a : Accounts) :
    RowStep e a.trade op (account web3 maxReservedPerToken choice op a).2.trade := by
  obtain ⟨choice',same⟩ := account_refines web3 maxReservedPerToken choice op a
  have row := handle_row e choice' op a.trade
  rw [same] at row
  exact row

/-- An effect leaves the rows of the ledger alone that count, unless it releases them. -/
private theorem account_counts (choice : Choice) (op : Op) {a : Accounts} {id : String} {r : LedgerRow}
    (found : a.ledger.rows.find? id = some r) (counts : r.state = .committed ∨ a.seconds < r.expiresAt)
    (kept : ∀ e, op = .release e id → r.state = .committed) :
    ∃ r', (account web3 maxReservedPerToken choice op a).2.ledger.rows.find? id = some r' ∧
      (r'.state = .committed ∨ r' = r) := by
  cases op with
  | reserve quoteHash policyHash messageHash =>
    refine ⟨r,?_,.inr rfl⟩
    simp only [account,reserve]
    split
    · exact found
    · split
      · exact found
      · exact ReservationLedger.rows_reserveWithin _ _ _ _ found counts
  | commit e reservationId =>
    cases reservationId with
    | none => exact ⟨r,found,.inr rfl⟩
    | some other =>
      simp only [account,commit]
      split
      · exact ⟨r,found,.inr rfl⟩
      · by_cases same : other = id
        · subst same
          have there : a.ledger.has other = true := by rw [ReservationLedger.has,found]; rfl
          obtain ⟨r',now,state⟩ := ReservationLedger.committed_commit there a.seconds
          exact ⟨r',now,.inl state⟩
        · refine ⟨r,?_,.inr rfl⟩
          rw [ReservationLedger.find?_commit_of_ne same]
          exact found
  | release e other =>
    refine ⟨r,?_,.inr rfl⟩
    simp only [account,release]
    split
    · exact found
    · have named : r.id = id := Table.key_of_find? found
      rw [ReservationLedger.find?_release,found,Option.filter_some_pos]
      simp only [named,decide_eq_true_eq,not_and]
      rintro rfl
      rw [kept e rfl]
      exact LedgerState.noConfusion
  | _ => exact ⟨r,found,.inr rfl⟩

private theorem committed_stays (choice : Choice) (op : Op) {a : Accounts} {id : String}
    (committed : a.ledger.Committed id) :
    (account web3 maxReservedPerToken choice op a).2.ledger.Committed id := by
  obtain ⟨r,found,state⟩ := committed
  obtain ⟨r',found',same⟩ := account_counts choice op found (.inl state) fun _ _ => state
  refine ⟨r',found',?_⟩
  rcases same with done | rfl
  · exact done
  · exact state

private theorem counts_stays (choice : Choice) (op : Op) {a : Accounts} {id : String}
    (counts : a.ledger.Counts id a.seconds) (kept : ∀ e, op = .release e id → a.ledger.Committed id) :
    (account web3 maxReservedPerToken choice op a).2.ledger.Counts id
      (account web3 maxReservedPerToken choice op a).2.seconds := by
  obtain ⟨r,found,alive⟩ := counts
  have keeps : ∀ e, op = .release e id → r.state = .committed := by
    intro e release
    obtain ⟨other,found',state⟩ := kept e release
    cases Option.some.inj (found.symm.trans found')
    exact state
  obtain ⟨r',found',same⟩ := account_counts choice op found alive keeps
  have seconds : (account web3 maxReservedPerToken choice op a).2.seconds = a.seconds := by
    unfold Accounts.seconds
    rw [account_clock]
  refine ⟨r',found',?_⟩
  rw [seconds]
  rcases same with done | rfl
  · exact .inl done
  · exact alive

private theorem commit_commits {a : Accounts} {id : String} (spends : id ∉ a.revokeReservations)
    (counts : a.ledger.Counts id a.seconds) : (commit id a).2.ledger.Committed id := by
  unfold commit
  rw [if_neg spends]
  exact ReservationLedger.committed_commit (ReservationLedger.has_of_counts counts) _

end Adapter

structure Kept (e : String) (p : Spending) : Prop where
  steady : Steady e (p.view (·.trade))
  pinned : ∀ authorizationId messageHash signature limit x,
    ⟨.transition e [.signing] (persistPatch authorizationId messageHash signature limit),.ok x⟩ ∈ p.trace →
      ∃ y, p.state.trade.row e = some y ∧ y.reservationId = x.reservationId
  late : ∀ id answer, ⟨.commit e id,answer⟩ ∈ p.trace → ∃ x, p.state.trade.row e = some x ∧ x.state.sent = true
  bound : ∀ done, ⟨.commit e none,.ok done⟩ ∉ p.trace
  settled : ∀ x, p.state.trade.row e = some x → Swap p.state.trade x → x.state = .submitting →
    ∀ id, x.reservationId = some id → ∀ done, ⟨.commit e (some id),.ok done⟩ ∈ p.trace → p.state.ledger.Committed id
  accounted : Accounted e p.state

def Accounts.initial (clock : ℤ) (ledger : ReservationLedger) : Accounts := ⟨State.initial clock,ledger,[]⟩

private theorem kept_initial (e : String) (clock : ℤ) (ledger : ReservationLedger) :
    Kept e (Config.initial (Accounts.initial clock ledger)) where
  steady := steady_initial e clock
  pinned _ _ _ _ _ member := by simp [Config.initial] at member
  late _ _ member := by simp [Config.initial] at member
  bound _ member := by simp [Config.initial] at member
  settled x found := by simp [Config.initial,Accounts.initial] at found
  accounted x found := by simp [Config.initial,Accounts.initial] at found

section Moves
variable {web3 : Signer.Web3} {c : Deployment}

theorem Move.to_submitting {h : Log} {e : String} {states : List TradeState} {patch : Patch} {s : TradeState}
    (move : Move web3 c h e states patch) (expected : s ∈ states)
    (target : patch.state.getD s = .submitting) : s = .signing := by
  cases move with
  | decide either => rcases either with rfl | rfl <;> cases target
  | request =>
    cases List.mem_singleton.mp expected
    cases target
  | start => cases target
  | authorize issued => exact List.mem_singleton.mp expected
  | persist responded checked attached nonempty approved => exact List.mem_singleton.mp expected
  | settle persisted committed => cases target
  | unknown => cases target
  | expire live => cases target
  | drop read known past => cases target
  | doubt read known certain => cases target
  | observe read known seen =>
    simp only [Option.getD_some,settledState] at target
    split at target
    · cases target
    · split at target <;> cases target

/-- A row is moved to `broadcast` by a call that has persisted its signature and has just
committed the reservation it was given then. -/
theorem Move.to_broadcast {h : Log} {e : String} {states : List TradeState} {patch : Patch}
    (move : Move web3 c h e states patch) (target : patch.state = some .broadcast)
    (reserving : c.reservations = true) :
    states = [.submitting] ∧ ∃ authorizationId messageHash signature limit x done,
      ⟨.transition e [.signing] (persistPatch authorizationId messageHash signature limit),.ok x⟩ ∈ h ∧
        ⟨.commit e x.reservationId,.ok done⟩ ∈ h := by
  cases move with
  | decide either => rcases either with rfl | rfl <;> cases target
  | settle persisted committed =>
    obtain ⟨done,rest,newest⟩ := committed reserving
    refine ⟨rfl,_,_,_,_,_,done,persisted,?_⟩
    rw [newest]
    exact List.mem_cons_self
  | observe read known seen =>
    simp only [Option.some.injEq,settledState] at target
    split at target
    · cases target
    · split at target <;> cases target
  | _ => cases target

variable {maxReservedPerToken : String → ℤ} {e : String} {p : Spending} {op : Op}
  {next : Except String op.Ans → Trade Unit} {history : Log} {i : ℕ}

private theorem pinned_perform (kept : Kept e p) (choice : Choice) {authorizationId : Option String}
    {messageHash signature : String} {limit : ℕ} {x : Execution}
    (member : ⟨.transition e [.signing] (persistPatch authorizationId messageHash signature limit),.ok x⟩ ∈
      (⟨op,(account web3 maxReservedPerToken choice op p.state).1⟩ :: p.trace : Log)) :
    ∃ y, (account web3 maxReservedPerToken choice op p.state).2.trade.row e = some y ∧
      y.reservationId = x.reservationId := by
  rcases List.mem_cons.mp member with entry | inside
  · obtain ⟨rfl,answered⟩ := Sigma.mk.inj entry
    have returned : (handle choice (.transition e [.signing]
        (persistPatch authorizationId messageHash signature limit)) p.state.trade).1 = .ok x :=
      (eq_of_heq answered).symm
    obtain ⟨row,_⟩ := transition_answer returned
    exact ⟨x,row,rfl⟩
  · obtain ⟨y,found,same⟩ := kept.pinned _ _ _ _ x inside
    have step := account_row web3 maxReservedPerToken e choice op p.state
    cases step with
    | same row => exact ⟨y,row.trans found,same⟩
    | created absent row => simp [absent] at found
    | moved there expected row =>
      cases Option.some.inj (there.symm.trans found)
      exact ⟨_,row,same⟩

private theorem sent_perform (steady : Steady e (p.view (·.trade))) (choice : Choice) {x : Execution}
    (found : p.state.trade.row e = some x) (sent : x.state.sent = true)
    (signed : ∀ y, (account web3 maxReservedPerToken choice op p.state).2.trade.row e = some y →
      (y.signature.isSome ↔ y.state.sent = true)) :
    ∃ y, (account web3 maxReservedPerToken choice op p.state).2.trade.row e = some y ∧ y.state.sent = true := by
  have known : x.signature.isSome := (steady.signed x found).mpr sent
  have step := account_row web3 maxReservedPerToken e choice op p.state
  cases step with
  | same row =>
    rw [row]
    exact ⟨x,found,sent⟩
  | created absent row => simp [absent] at found
  | moved there expected row =>
    cases Option.some.inj (there.symm.trans found)
    refine ⟨_,row,(signed _ row).mp ?_⟩
    obtain ⟨signature,same⟩ := Option.isSome_iff_exists.mp known
    simp [Execution.patched,same]

private theorem late_perform (disciplined : Disciplined web3 c (p.view (·.trade))) (kept : Kept e p)
    (here : p.threads i = some ⟨.perform op next,history⟩) (choice : Choice)
    (signed : ∀ y, (account web3 maxReservedPerToken choice op p.state).2.trade.row e = some y →
      (y.signature.isSome ↔ y.state.sent = true)) {id : Option String} {answer : Except String Bool}
    (member : ⟨.commit e id,answer⟩ ∈ (⟨op,(account web3 maxReservedPerToken choice op p.state).1⟩ :: p.trace : Log)) :
    ∃ x, (account web3 maxReservedPerToken choice op p.state).2.trade.row e = some x ∧ x.state.sent = true := by
  rcases List.mem_cons.mp member with entry | inside
  · obtain ⟨rfl,_⟩ := Sigma.mk.inj entry
    obtain ⟨authorizationId,messageHash,signature,limit,x,persisted,_⟩ := disciplined.allowed here
    have recorded := disciplined.recorded here persisted
    obtain ⟨y,found,known⟩ := kept.steady.stays _ recorded signature .persisted
    have sent : y.state.sent = true := (kept.steady.signed y found).mp (by rw [known]; rfl)
    exact sent_perform kept.steady choice found sent signed
  · obtain ⟨x,found,sent⟩ := kept.late id answer inside
    exact sent_perform kept.steady choice found sent signed

private theorem bound_perform (kept : Kept e p) (choice : Choice) (done : Bool) :
    ⟨.commit e none,.ok done⟩ ∉ (⟨op,(account web3 maxReservedPerToken choice op p.state).1⟩ :: p.trace : Log) := by
  intro member
  rcases List.mem_cons.mp member with entry | inside
  · obtain ⟨rfl,answered⟩ := Sigma.mk.inj entry
    cases eq_of_heq answered
  · exact kept.bound done inside

private theorem settled_perform (disciplined : Disciplined web3 c (p.view (·.trade))) (kept : Kept e p)
    (here : p.threads i = some ⟨.perform op next,history⟩) (choice : Choice)
    (fits : ∀ x ∈ p.state.trade.row e, Swap p.state.trade x → Fits e p.state x op) {x : Execution}
    (found : (account web3 maxReservedPerToken choice op p.state).2.trade.row e = some x)
    (spends : Swap p.state.trade x) (submitting : x.state = .submitting) {id : String}
    (reserved : x.reservationId = some id) {done : Bool}
    (member : ⟨.commit e (some id),.ok done⟩ ∈
      (⟨op,(account web3 maxReservedPerToken choice op p.state).1⟩ :: p.trace : Log)) :
    (account web3 maxReservedPerToken choice op p.state).2.ledger.Committed id := by
  rcases List.mem_cons.mp member with entry | inside
  · obtain ⟨rfl,_⟩ := Sigma.mk.inj entry
    have before : p.state.trade.row e = some x := by
      have trade : (commit id p.state).2.trade = p.state.trade := by
        unfold commit
        split <;> rfl
      rw [← trade]
      exact found
    have own : id ∉ p.state.revokeReservations := fits x before spends rfl id rfl
    have held : x.state.held = true := by rw [submitting]; rfl
    obtain ⟨id',same,counts⟩ := (kept.accounted x before spends).2 held
    cases Option.some.inj (same.symm.trans reserved)
    exact commit_commits own counts
  · have step := account_row web3 maxReservedPerToken e choice op p.state
    have allowed := disciplined.allowed here
    cases step with
    | same row =>
      rw [row] at found
      exact committed_stays choice op (kept.settled x found spends submitting id reserved done inside)
    | created absent row =>
      cases Option.some.inj (row.symm.trans found)
      rcases allowed with fresh | fresh <;> rw [ExecutionStore.newRow,fresh] at submitting <;> cases submitting
    | moved there expected row =>
      cases Option.some.inj (row.symm.trans found)
      have was := Move.to_submitting allowed expected submitting
      obtain ⟨y,found',sent⟩ := kept.late _ _ inside
      cases Option.some.inj (there.symm.trans found')
      rw [was] at sent
      cases sent

/-- A move keeps the books: the states a row enters on its own are the ones in which its
reservation counts already. -/
private theorem accounted_move (disciplined : Disciplined web3 c (p.view (·.trade))) (reserving : c.reservations = true)
    (kept : Kept e p) {states : List TradeState} {patch : Patch}
    {next : Except String Execution → Trade Unit}
    (here : p.threads i = some ⟨.perform (.transition e states patch) next,history⟩) {old : Execution}
    (found : p.state.trade.row e = some old) (expected : old.state ∈ states) (spends : Swap p.state.trade old)
    (fits : ∀ s ∈ patch.state, Enters p.state old s) :
    ((patch.state.getD old.state).landed = true → p.state.Committed old) ∧
      ((patch.state.getD old.state).held = true → p.state.Counted old) := by
  have before := kept.accounted old found spends
  have counted : old.state.landed = true → p.state.Counted old := by
    intro landed
    obtain ⟨id,reserved,committed⟩ := before.1 landed
    exact ⟨id,reserved,committed.counts _⟩
  cases target : patch.state with
  | none => exact before
  | some s =>
    have enters := fits s target
    rw [Option.getD_some]
    constructor
    · intro landed
      by_cases already : old.state.landed = true
      · exact before.1 already
      · rw [Bool.not_eq_true] at already
        cases s with
        | broadcast =>
          have move : Move web3 c history e states patch := disciplined.allowed here
          obtain ⟨rfl,_,_,_,_,x,done,persisted,committed⟩ := move.to_broadcast target reserving
          have recorded := disciplined.recorded here
          obtain ⟨y,found',same⟩ := kept.pinned _ _ _ _ x (recorded persisted)
          cases Option.some.inj (found.symm.trans found')
          cases reserved : x.reservationId with
          | none =>
            rw [reserved] at committed
            exact absurd (recorded committed) (kept.bound done)
          | some id =>
            rw [reserved] at committed
            have own := same.trans reserved
            exact ⟨id,own,kept.settled old found spends (List.mem_singleton.mp expected) id own done
              (recorded committed)⟩
        | confirmed => exact enters.2 (.inl rfl) already
        | finalized => exact enters.2 (.inr rfl) already
        | _ => cases landed
    · intro held
      by_cases waited : old.state.held = true
      · exact before.2 waited
      · by_cases already : old.state.landed = true
        · exact counted already
        · rw [Bool.not_eq_true] at waited already
          exact enters.1 held waited already

private theorem accounted_perform (disciplined : Disciplined web3 c (p.view (·.trade)))
    (reserving : c.reservations = true) (kept : Kept e p)
    (here : p.threads i = some ⟨.perform op next,history⟩) (choice : Choice)
    (fits : ∀ x ∈ p.state.trade.row e, Swap p.state.trade x → Fits e p.state x op) :
    Accounted e (account web3 maxReservedPerToken choice op p.state).2 := by
  intro x found swap
  have quotes := account_quote web3 maxReservedPerToken choice op p.state x.quoteId
  have spends : Swap p.state.trade x := by
    unfold Swap at swap ⊢
    rw [← quotes]
    exact swap
  have step := account_row web3 maxReservedPerToken e choice op p.state
  have allowed := disciplined.allowed here
  cases step with
  | same row =>
    have before : p.state.trade.row e = some x := row.symm.trans found
    obtain ⟨committed,counted⟩ := kept.accounted x before spends
    constructor
    · intro landed
      obtain ⟨id,reserved,done⟩ := committed landed
      exact ⟨id,reserved,committed_stays choice op done⟩
    · intro held
      obtain ⟨id,reserved,counts⟩ := counted held
      refine ⟨id,reserved,counts_stays choice op counts ?_⟩
      rintro other rfl
      exact fits x before spends held reserved
  | created absent row =>
    cases Option.some.inj (row.symm.trans found)
    rcases allowed with rfl | rfl <;> simp [ExecutionStore.newRow,TradeState.landed,TradeState.held]
  | moved there expected row =>
    cases Option.some.inj (row.symm.trans found)
    exact accounted_move disciplined reserving kept here there expected spends
      (fits _ there spends rfl)

private theorem kept_idle {p' : Spending} (kept : Kept e p) (steady : Steady e (p'.view (·.trade)))
    (trace : p'.trace = p.trace) (row : p'.state.trade.row e = p.state.trade.row e)
    (ledger : p'.state.ledger = p.state.ledger)
    (quotes : ∀ id q, p.state.trade.store.getQuote id = some q → p'.state.trade.store.getQuote id = some q)
    (counts : ∀ x ∈ p.state.trade.row e, Swap p.state.trade x → x.state.held = true → p'.state.Counted x) :
    Kept e p' := by
  have spent : ∀ x, Swap p'.state.trade x → Swap p.state.trade x := fun x swap q found =>
    swap q (quotes x.quoteId q found)
  constructor
  · exact steady
  · rw [trace,row]
    exact kept.pinned
  · rw [trace,row]
    exact kept.late
  · rw [trace]
    exact kept.bound
  · rw [trace,row,ledger]
    exact fun x found swap => kept.settled x found (spent x swap)
  · intro x found swap
    rw [row] at found
    have spends := spent x swap
    refine ⟨fun landed => ?_,counts x found spends⟩
    obtain ⟨id,reserved,committed⟩ := (kept.accounted x found spends).1 landed
    exact ⟨id,reserved,by rw [ledger]; exact committed⟩

variable (web3) (maxReservedPerToken) in
private theorem kept_step (reserving : c.reservations = true) (event : Event Call Choice)
    (disciplined : Disciplined web3 c (p.view (·.trade))) (careful : Careful e p event) (kept : Kept e p) :
    Kept e ((accounting web3 maxReservedPerToken c).step p event) := by
  have steady : Steady e (((accounting web3 maxReservedPerToken c).step p event).view (·.trade)) := by
    obtain ⟨event',same⟩ := (accounting_refines web3 maxReservedPerToken c).step p event
    rw [← same]
    exact steady_step disciplined event' kept.steady
  cases event with
  | start call =>
    refine kept_idle kept steady rfl rfl rfl (fun _ _ found => found) ?_
    exact fun x found spends => (kept.accounted x found spends).2
  | crash =>
    refine kept_idle kept steady rfl rfl rfl (fun _ _ found => found) ?_
    exact fun x found spends => (kept.accounted x found spends).2
  | ambient choice =>
    have row : (elapse choice p.state.trade).row e = p.state.trade.row e := by
      unfold elapse State.row
      dsimp only
      split
      · split <;> rfl
      · rfl
    exact kept_idle kept steady rfl row rfl (fun _ _ => elapse_quote choice _) careful
  | perform i choice =>
    rcases (accounting web3 maxReservedPerToken c).perform_cases p i choice with ⟨op,next,history,here⟩ | idle
    · have fits : ∀ x ∈ p.state.trade.row e, Swap p.state.trade x → Fits e p.state x op := by
        simpa only [Careful,here] using careful
      rw [(accounting web3 maxReservedPerToken c).perform_eq here choice] at steady ⊢
      constructor
      · exact steady
      · exact fun _ _ _ _ _ member => pinned_perform kept choice member
      · exact fun _ _ member => late_perform disciplined kept here choice steady.signed member
      · exact bound_perform kept choice
      · intro x found swap submitting id reserved done member
        have quotes := account_quote web3 maxReservedPerToken choice op p.state x.quoteId
        refine settled_perform disciplined kept here choice fits found ?_ submitting reserved member
        unfold Swap at swap ⊢
        rw [← quotes]
        exact swap
      · exact accounted_perform disciplined reserving kept here choice fits
    · rw [idle]
      exact kept

end Moves

/-- In every run whose steps keep the reservations of the spends under way, whoever
settles them, no landed spend escapes the ledger. -/
theorem landed_spend_committed (web3 : Signer.Web3) (maxReservedPerToken : String → ℤ) (c : Deployment)
    (reserving : c.reservations = true) (clock : ℤ) (ledger : ReservationLedger) (events : List (Event Call Choice))
    (e : String)
    (careful : (accounting web3 maxReservedPerToken c).Meets (Careful e)
      (Config.initial (Accounts.initial clock ledger)) events) :
    Accounted e ((accounting web3 maxReservedPerToken c).run
      (Config.initial (Accounts.initial clock ledger)) events).state := by
  have kept := (accounting web3 maxReservedPerToken c).run_induction
    (program_safe web3 c) (Careful e) (Kept e)
    (fun p event disciplined careful kept =>
      kept_step web3 maxReservedPerToken reserving event (fun i t found => disciplined i t found) careful kept)
    (System.obeys_initial _) (kept_initial e clock ledger) events careful
  exact kept.2.accounted

instance (e : String) (a : Accounts) : Decidable (Accounted e a) := by
  unfold Accounted
  infer_instance

namespace Sample

/-- The digest of the reservation of `quote`, next to the digests of the messages. -/
def hashing : Signer.Web3 :=
  { Signer.Sample.web3 with
    sha256 := fun bytes =>
      if bytes = reservationText quote.quoteHash request.messageHash then
        "0501e5f4dd16a5e1c15f736b2b7e8d98ce3587331752b725cfd2797fc4f2fe2e"
      else Signer.Sample.web3.sha256 bytes }

def lost : List (Event Call Choice) :=
  approval ++ [.start (.submit "e")] ++ stepsWith lostReply 2 14 ++ [.start (.reconcile "e")] ++
    stepsWith lostReply 3 3

def spending : System Op Op.Ans String Accounts Call Choice := accounting hashing (fun _ => 1000) deployment

def books : Spending := Config.initial (Accounts.initial 0 (.empty 600))

end Sample

open Sample in
theorem landed_spend_committed_settlement :
    Accounted "e" (spending.run books settlement).state ∧
      ((spending.run books settlement).state.trade.row "e").map (·.state) = some .finalized := by
  have run : spending.Meets (Careful "e") books settlement ∧
      ((spending.run books settlement).state.trade.row "e").map (·.state) = some .finalized := by decide +kernel
  exact ⟨landed_spend_committed hashing (fun _ => 1000) deployment rfl 0 (.empty 600) settlement "e" run.1,run.2⟩

open Sample in
/-- The broadcast threw although the bytes landed: reconciliation finds the execution
finalized, and its reservation is left to expire. -/
theorem lost_broadcast_uncommitted : ¬Accounted "e" (spending.run books lost).state := by
  decide +kernel

end RatifyOs.Trading
