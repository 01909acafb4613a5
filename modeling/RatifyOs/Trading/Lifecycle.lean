import RatifyOs.Trading.Discipline

/-! One execution over a whole run: where its row can go, and that a signature, once it
is on the row, stays there. -/
namespace RatifyOs.Trading
open Async

/-- The row carries the signature of a transaction that may be on the wire. -/
def TradeState.sent : TradeState → Bool
  | .submitting | .reconciliationRequired | .broadcast | .confirmed | .finalized | .failed | .dropped => true
  | .awaitingApproval | .approved | .dryRun | .signing | .denied | .expired => false

def State.initial (clock : ℤ) : State := ⟨.empty,clock⟩

@[simp] theorem row_initial (clock : ℤ) (e : String) : (State.initial clock).row e = none := rfl

section Lifecycle
variable (web3 : Signer.Web3) (c : Deployment)

abbrev Disciplined (p : Pool) : Prop := System.Obeys (allow web3 c) (fun _ => True) p

/-- What one step of a run does to the row of one execution. -/
inductive Change (e : String) (p : Pool) (event : Event Call Choice) (p' : Pool) : Prop where
  | same (row : p'.state.row e = p.state.row e)
  | created {x state} (fresh : state = .awaitingApproval ∨ state = .dryRun) (absent : p.state.row e = none)
      (row : p'.state.row e = some (ExecutionStore.newRow x state e p.state.clock))
  | moved {i choice states patch next history old} (performed : event = .perform i choice)
      (here : p.threads i = some ⟨.perform (.transition e states patch) next,history⟩)
      (move : Move web3 c history e states patch) (recorded : history ⊆ p.trace)
      (found : p.state.row e = some old) (expected : old.state ∈ states)
      (row : p'.state.row e = some (old.patched patch p.state.clock))

theorem change_of_step (e : String) {p : Pool} (disciplined : Disciplined web3 c p) (event : Event Call Choice) :
    Change web3 c e p event ((system web3 c).step p event) := by
  rcases row_of_step web3 c e p event with same | ⟨i,choice,op,next,history,performed,here,step⟩
  · exact .same same
  · have allowed := disciplined.allowed here
    have recorded := disciplined.recorded here
    cases step with
    | same row => exact .same row
    | created absent row => exact .created allowed absent row
    | moved found expected row => exact .moved performed here allowed recorded found expected row

/-- The answer of a call that saw this signature on the row of `e`, or put it there. -/
inductive Reports (e signature : String) : Entry Op Op.Ans String → Prop where
  | read {x} (known : x.signature = some signature) : Reports e signature ⟨.getExecution e,.ok (some x)⟩
  | persisted {authorizationId messageHash limit x} :
      Reports e signature
        ⟨.transition e [.signing] (persistPatch authorizationId messageHash signature limit),.ok x⟩

structure Steady (e : String) (p : Pool) : Prop where
  signed : ∀ x, p.state.row e = some x → (x.signature.isSome ↔ x.state.sent = true)
  stays : ∀ entry ∈ p.trace, ∀ signature, Reports e signature entry →
    ∃ x, p.state.row e = some x ∧ x.signature = some signature
  bounded : ∀ x, ⟨.getExecution e,.ok (some x)⟩ ∈ p.trace → x.signature.isSome →
    ∃ y, p.state.row e = some y ∧ y.lastValidBlockHeight = x.lastValidBlockHeight

theorem steady_initial (e : String) (clock : ℤ) : Steady e (Config.initial (State.initial clock)) where
  signed x found := by simp [Config.initial] at found
  stays entry member := by simp [Config.initial] at member
  bounded x member := by simp [Config.initial] at member

/-- What a transition does to the signature: it leaves it alone on the same side of the
broadcast, or persists the first one, or writes again the one that is there. -/
inductive Signs (h : Log) (e : String) (states : List TradeState) (patch : Patch) (old : Execution) : Prop where
  | keeps (none : patch.signature = none) (side : (patch.state.getD old.state).sent = old.state.sent)
  | first {authorizationId messageHash signature limit} (unsigned : old.signature = none)
      (from_signing : states = [.signing]) (was : old.state = .signing)
      (persists : patch = persistPatch authorizationId messageHash signature limit)
  | again {signature} (known : old.signature = some signature) (writes : patch.signature = some signature)
      (sent : (patch.state.getD old.state).sent = true)

theorem settledState_sent (status : SignatureStatus) : (settledState c status).sent = true := by
  unfold settledState
  split
  · rfl
  · split <;> rfl

variable {web3 c}

theorem read_signature {e : String} {p : Pool} (steady : Steady e p) {h : Log} (recorded : h ⊆ p.trace)
    {x old : Execution} {signature : String} (read : LastRead e h x) (known : x.signature = some signature)
    (found : p.state.row e = some old) : old.signature = some signature ∧ old.state.sent = true := by
  have inside : ⟨.getExecution e,.ok (some x)⟩ ∈ h := List.mem_of_find?_eq_some read
  obtain ⟨y,here,same⟩ := steady.stays _ (recorded inside) signature (.read known)
  have equal : old = y := Option.some.inj (found.symm.trans here)
  subst equal
  exact ⟨same,(steady.signed old found).mp (by simp [same])⟩

theorem Move.signs {e : String} {p : Pool} (steady : Steady e p) {h : Log} (recorded : h ⊆ p.trace)
    {states : List TradeState} {patch : Patch} {old : Execution} (move : Move web3 c h e states patch)
    (found : p.state.row e = some old) (expected : old.state ∈ states) : Signs h e states patch old := by
  cases move with
  | decide either =>
    have was : old.state = .awaitingApproval := List.mem_singleton.mp expected
    refine .keeps rfl ?_
    rw [was]
    rcases either with rfl | rfl <;> rfl
  | request => exact .keeps rfl rfl
  | start =>
    have was : old.state = .approved := List.mem_singleton.mp expected
    exact .keeps rfl (by rw [was]; rfl)
  | authorize issued => exact .keeps rfl rfl
  | persist responded checked attached nonempty approved =>
    have was : old.state = .signing := List.mem_singleton.mp expected
    refine .first ?_ rfl was rfl
    cases signature : old.signature with
    | none => rfl
    | some s =>
      have sent := (steady.signed old found).mp (by simp [signature])
      rw [was] at sent
      cases sent
  | settle persisted committed =>
    obtain ⟨y,here,same⟩ := steady.stays _ (recorded persisted) _ .persisted
    have equal : old = y := Option.some.inj (found.symm.trans here)
    exact .again (equal ▸ same) rfl rfl
  | unknown =>
    have was : old.state = .submitting := List.mem_singleton.mp expected
    exact .keeps rfl (by rw [was]; rfl)
  | expire live =>
    have was := List.mem_singleton.mp expected
    refine .keeps rfl ?_
    rw [was]
    rcases live with rfl | rfl <;> rfl
  | drop read known past => exact .keeps rfl (read_signature steady recorded read known found).2.symm
  | doubt read known certain => exact .keeps rfl (read_signature steady recorded read known found).2.symm
  | observe read known seen =>
    exact .again (read_signature steady recorded read known found).1 rfl (settledState_sent c _)

/-- The signature on the row after a transition, and which side of the broadcast it is on. -/
theorem Signs.after {h : Log} {e : String} {states : List TradeState} {patch : Patch} {old : Execution}
    (signs : Signs h e states patch old) (now : ℤ)
    (before : old.signature.isSome ↔ old.state.sent = true) :
    ((old.patched patch now).signature.isSome ↔ (old.patched patch now).state.sent = true) ∧
      ∀ signature, old.signature = some signature → (old.patched patch now).signature = some signature := by
  cases signs with
  | keeps none side =>
    simp only [Execution.patched,none,Option.none_or,side]
    exact ⟨before,fun _ same => same⟩
  | first unsigned _ _ persists =>
    subst persists
    exact ⟨by simp [Execution.patched,persistPatch,TradeState.sent],fun s known => by simp [unsigned] at known⟩
  | again known writes sent =>
    simp only [Execution.patched,writes,Option.some_or,sent,Option.isSome_some,true_and]
    exact fun s same => known.symm.trans same

/-- What a call is told about a signature is what the row says at that moment. -/
theorem reports_current (e signature : String) (choice : Choice) (op : Op) (s : State)
    (reports : Reports e signature ⟨op,(handle choice op s).1⟩) :
    ∃ x, (handle choice op s).2.row e = some x ∧ x.signature = some signature := by
  generalize answered : (handle choice op s).1 = answer at reports
  cases reports with
  | read known =>
    rename_i x
    exact ⟨x,Except.ok.inj answered,known⟩
  | persisted =>
    rename_i authorizationId messageHash limit x
    obtain ⟨row,old,_,_,patched⟩ := transition_answer answered
    exact ⟨x,row,by rw [patched]; rfl⟩

theorem Change.signature_stays {e : String} {p p' : Pool} {event : Event Call Choice}
    (change : Change web3 c e p event p') (steady : Steady e p) {x : Execution} {signature : String}
    (found : p.state.row e = some x) (known : x.signature = some signature) :
    ∃ y, p'.state.row e = some y ∧ y.signature = some signature := by
  cases change with
  | same row => exact ⟨x,row.trans found,known⟩
  | created fresh absent row => simp [absent] at found
  | moved performed here move recorded there expected row =>
    cases Option.some.inj (found.symm.trans there)
    have signs := move.signs steady recorded found expected
    exact ⟨_,row,(signs.after _ (steady.signed x found)).2 signature known⟩

/-- A row stays a row of its quote, and what was persisted with its signature stays. -/
theorem Change.keeps {e : String} {p p' : Pool} {event : Event Call Choice}
    (change : Change web3 c e p event p') (steady : Steady e p) {x : Execution} (found : p.state.row e = some x) :
    ∃ y, p'.state.row e = some y ∧ y.quoteId = x.quoteId ∧ (x.signature.isSome →
      y.lastValidBlockHeight = x.lastValidBlockHeight ∧ y.messageHash = x.messageHash) := by
  cases change with
  | same row => exact ⟨x,row.trans found,rfl,fun _ => ⟨rfl,rfl⟩⟩
  | created fresh absent row => simp [absent] at found
  | moved performed here move recorded there expected row =>
    cases Option.some.inj (found.symm.trans there)
    refine ⟨_,row,rfl,fun known => ?_⟩
    cases move with
    | persist responded checked attached nonempty approved =>
      have was : x.state = .signing := List.mem_singleton.mp expected
      have sent := (steady.signed x found).mp known
      rw [was] at sent
      cases sent
    | _ => exact ⟨rfl,rfl⟩

theorem steady_step {e : String} {p : Pool} (disciplined : Disciplined web3 c p) (event : Event Call Choice)
    (steady : Steady e p) : Steady e ((system web3 c).step p event) := by
  have change := change_of_step web3 c e disciplined event
  constructor
  · intro x found
    cases change with
    | same row => exact steady.signed x (row.symm.trans found)
    | created fresh absent row =>
      cases Option.some.inj (row.symm.trans found)
      rcases fresh with rfl | rfl <;> simp [ExecutionStore.newRow,TradeState.sent]
    | moved performed here move recorded there expected row =>
      cases Option.some.inj (row.symm.trans found)
      have signs := move.signs steady recorded there expected
      exact (signs.after _ (steady.signed _ there)).1
  · intro entry member signature reports
    have older : entry ∈ p.trace → ∃ x, ((system web3 c).step p event).state.row e = some x ∧
        x.signature = some signature := fun inside => by
      obtain ⟨x,found,known⟩ := steady.stays entry inside signature reports
      exact change.signature_stays steady found known
    rcases (system web3 c).trace_of_step p event with same | ⟨i,choice,op,next,history,_,here,grown,state⟩
    · exact older (same ▸ member)
    · rw [grown] at member
      rcases List.mem_cons.mp member with rfl | inside
      · rw [state]
        exact reports_current e signature choice op p.state reports
      · exact older inside
  · intro x member known
    have older : ⟨.getExecution e,.ok (some x)⟩ ∈ p.trace →
        ∃ y, ((system web3 c).step p event).state.row e = some y ∧ y.lastValidBlockHeight = x.lastValidBlockHeight := by
      intro inside
      obtain ⟨y,found,bound⟩ := steady.bounded x inside known
      obtain ⟨signature,same⟩ := Option.isSome_iff_exists.mp known
      obtain ⟨z,there,signed⟩ := steady.stays _ inside signature (.read same)
      cases Option.some.inj (found.symm.trans there)
      obtain ⟨y',row,_,kept⟩ := change.keeps steady found
      exact ⟨y',row,(kept (by rw [signed]; rfl)).1.trans bound⟩
    rcases (system web3 c).trace_of_step p event with same | ⟨i,choice,op,next,history,_,here,grown,state⟩
    · exact older (same ▸ member)
    · rw [grown] at member
      rcases List.mem_cons.mp member with entry | inside
      · obtain ⟨rfl,answered⟩ := Sigma.mk.inj entry
        have read : p.state.row e = some x := Except.ok.inj (eq_of_heq answered).symm
        rw [state]
        exact ⟨x,read,rfl⟩
      · exact older inside

theorem Change.sent_stays {e : String} {p p' : Pool} {event : Event Call Choice}
    (change : Change web3 c e p event p') (steady : Steady e p) (steady' : Steady e p') {x : Execution}
    (found : p.state.row e = some x) (sent : x.state.sent = true) :
    ∃ y, p'.state.row e = some y ∧ y.state.sent = true := by
  obtain ⟨signature,known⟩ := Option.isSome_iff_exists.mp ((steady.signed x found).mpr sent)
  obtain ⟨y,row,same⟩ := change.signature_stays steady found known
  exact ⟨y,row,(steady'.signed y row).mp (by simp [same])⟩

theorem run_steady (clock : ℤ) (events : List (Event Call Choice)) (e : String) :
    Disciplined web3 c ((system web3 c).run (Config.initial (State.initial clock)) events) ∧
      Steady e ((system web3 c).run (Config.initial (State.initial clock)) events) := by
  refine (system web3 c).run_induction (program_safe web3 c) (fun _ _ => True) (Steady e)
    (fun p event disciplined _ steady => steady_step disciplined event steady)
    (System.obeys_initial _) (steady_initial e clock) events ?_
  exact (system web3 c).meets_of_forall (fun _ _ => trivial) _ _

end Lifecycle

end RatifyOs.Trading
