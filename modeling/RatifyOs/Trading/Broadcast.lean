import RatifyOs.Async.Exclusive
import RatifyOs.Trading.Lifecycle

/-! A transaction reaches the wire once, and not before its signature is on the row. -/
namespace RatifyOs.Trading
open Async

def broadcasts (e : String) : Entry Op Op.Ans String → Bool
  | ⟨.broadcast id _,_⟩ => id = e
  | _ => false

/-- The call has just persisted a signature for `e`: the broadcast is its next effect, if
it makes one. -/
def Launching (e : String) (thread : Thread Op Op.Ans String) : Prop :=
  ∃ authorizationId messageHash signature limit x rest, thread.history =
    ⟨.transition e [.signing] (persistPatch authorizationId messageHash signature limit),.ok x⟩ :: rest

structure Once (e : String) (p : Pool) : Prop where
  steady : Steady e p
  exclusive : System.Exclusive (Launching e) (broadcasts e) p
  early : (∀ x, p.state.row e = some x → x.state.sent = false) → System.Unused (Launching e) (broadcasts e) p

section Broadcast
variable {web3 : Signer.Web3} {c : Deployment}

theorem once_initial (e : String) (clock : ℤ) : Once e (Config.initial (State.initial clock)) where
  steady := steady_initial e clock
  exclusive := (System.unused_initial _).exclusive
  early _ := System.unused_initial _

private theorem launching_sent {e : String} {p : Pool} (disciplined : Disciplined web3 c p) (steady : Steady e p)
    {i : ℕ} {thread : Thread Op Op.Ans String} (found : p.threads i = some thread)
    (launching : Launching e thread) : ∃ x, p.state.row e = some x ∧ x.state.sent = true := by
  obtain ⟨authorizationId,messageHash,signature,limit,x,rest,newest⟩ := launching
  have inside := disciplined.recorded found (newest ▸ List.mem_cons_self)
  obtain ⟨y,row,known⟩ := steady.stays _ inside signature .persisted
  exact ⟨y,row,(steady.signed y row).mp (by simp [known])⟩

private theorem broadcast_launching {e wire : String} {p : Pool} (disciplined : Disciplined web3 c p) {i : ℕ}
    {next : Except String (Op.broadcast e wire).Ans → Program Op Op.Ans String Unit} {history : Log}
    (here : p.threads i = some ⟨.perform (.broadcast e wire) next,history⟩) :
    Launching e ⟨.perform (.broadcast e wire) next,history⟩ := by
  obtain ⟨authorizationId,messageHash,signature,limit,x,response,rest,newest,_⟩ := disciplined.allowed here
  exact ⟨authorizationId,messageHash,signature,limit,x,_,newest⟩

private theorem handover {e : String} {p : Pool} (disciplined : Disciplined web3 c p) (once : Once e p)
    {i : ℕ} (choice : Choice) {op : Op} {next : Except String op.Ans → Program Op Op.Ans String Unit}
    {history : Log} (here : p.threads i = some ⟨.perform op next,history⟩) :
    System.Handover (Launching e) (broadcasts e) p i ⟨.perform op next,history⟩
      ⟨next (handle choice op p.state).1,⟨op,(handle choice op p.state).1⟩ :: history⟩
      ⟨op,(handle choice op p.state).1⟩ := by
  by_cases launched : Launching e ⟨next (handle choice op p.state).1,⟨op,(handle choice op p.state).1⟩ :: history⟩
  · obtain ⟨authorizationId,messageHash,signature,limit,x,rest,newest⟩ := launched
    obtain ⟨entry,_⟩ := List.cons.inj newest
    have unused : broadcasts e ⟨op,(handle choice op p.state).1⟩ = false := by rw [entry]; rfl
    -- the persist found the row in `signing`, so nothing of the kind happened before
    have before : System.Unused (Launching e) (broadcasts e) p := by
      refine once.early fun y found => ?_
      obtain ⟨rfl,answered⟩ := Sigma.mk.inj entry
      obtain ⟨_,old,there,expected,_⟩ := transition_answer (eq_of_heq answered)
      cases Option.some.inj (found.symm.trans there)
      rw [List.mem_singleton.mp expected]
      rfl
    exact .take unused before.2 fun j t _ found => before.1 j t found
  · by_cases broadcast : broadcasts e ⟨op,(handle choice op p.state).1⟩ = true
    · refine .use ?_ launched
      cases op with
      | broadcast id wire =>
        have same : id = e := by simpa [broadcasts] using broadcast
        subst same
        exact broadcast_launching disciplined here
      | _ => simp [broadcasts] at broadcast
    · exact .keep (Bool.not_eq_true _ ▸ broadcast) fun held => absurd held launched

private theorem once_step {e : String} {p : Pool} (event : Event Call Choice)
    (disciplined : Disciplined web3 c p) (once : Once e p) : Once e ((system web3 c).step p event) := by
  have steady' := steady_step disciplined event once.steady
  have disciplined' := (system web3 c).obeys_step (program_safe web3 c) p event disciplined
  have exclusive' : System.Exclusive (Launching e) (broadcasts e) ((system web3 c).step p event) := by
    refine (system web3 c).exclusive_step p event once.exclusive ?_ ?_
    · rintro call ⟨_,_,_,_,_,_,empty⟩
      cases empty
    · intro i choice op next history _ here
      exact handover disciplined once choice here
  refine ⟨steady',exclusive',fun unsent => ⟨?_,?_⟩⟩
  · intro i thread found launching
    obtain ⟨x,row,sent⟩ := launching_sent disciplined' steady' found launching
    simp [unsent x row] at sent
  · have change := change_of_step web3 c e disciplined event
    have before : ∀ x, p.state.row e = some x → x.state.sent = false := by
      intro x found
      by_contra sent
      obtain ⟨y,row,sent'⟩ := change.sent_stays once.steady steady' found (by simpa using sent)
      simp [unsent y row] at sent'
    obtain ⟨nobody,zero⟩ := once.early before
    rcases (system web3 c).trace_of_step p event with same | ⟨i,choice,op,next,history,_,here,grown,_⟩
    · rw [same]
      exact zero
    · rw [grown]
      have harmless : broadcasts e ⟨op,((system web3 c).handle choice op p.state).1⟩ = false := by
        cases op with
        | broadcast id wire =>
          by_contra broadcast
          have same : id = e := by simpa [broadcasts] using broadcast
          subst same
          exact nobody i _ here (broadcast_launching disciplined here)
        | _ => rfl
      simp [harmless,zero]

variable (web3 c) in
private theorem run_once (clock : ℤ) (events : List (Event Call Choice)) (e : String) :
    Disciplined web3 c ((system web3 c).run (Config.initial (State.initial clock)) events) ∧
      Once e ((system web3 c).run (Config.initial (State.initial clock)) events) := by
  refine (system web3 c).run_induction (program_safe web3 c) (fun _ _ => True) (Once e)
    (fun p event disciplined _ once => once_step event disciplined once)
    (System.obeys_initial _) (once_initial e clock) events ?_
  exact (system web3 c).meets_of_forall (fun _ _ => trivial) _ _

end Broadcast

/-- In every run, with crashes anywhere, an execution is broadcast at most once, and when
a call stands before its broadcast the row is past `signing` and carries exactly the
signature attached to the bytes. -/
theorem broadcast_at_most_once (web3 : Signer.Web3) (c : Deployment) (clock : ℤ) (events : List (Event Call Choice))
    (e : String) :
    ((system web3 c).run (Config.initial (State.initial clock)) events).trace.countP (broadcasts e) ≤ 1 ∧
      ∀ i wire next history,
        ((system web3 c).run (Config.initial (State.initial clock)) events).threads i =
            some ⟨.perform (.broadcast e wire) next,history⟩ →
          ∃ x signature,
            ((system web3 c).run (Config.initial (State.initial clock)) events).state.row e = some x ∧
              x.state ∈ [.submitting,.reconciliationRequired,.broadcast,.confirmed,.finalized,.failed,.dropped] ∧
              x.signature = some signature ∧ Signer.signatureOf web3 wire = .ok signature := by
  obtain ⟨disciplined,once⟩ := run_once web3 c clock events e
  refine ⟨once.exclusive.once,fun i wire next history here => ?_⟩
  obtain ⟨authorizationId,messageHash,signature,limit,x,response,rest,newest,_,attached⟩ := disciplined.allowed here
  have inside := disciplined.recorded here (newest ▸ List.mem_cons_self)
  obtain ⟨y,row,known⟩ := once.steady.stays _ inside signature .persisted
  refine ⟨y,signature,row,?_,known,attached⟩
  have sent := (once.steady.signed y row).mp (by simp [known])
  cases state : y.state <;> simp_all [TradeState.sent]

end RatifyOs.Trading
