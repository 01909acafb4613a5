import RatifyOs.Kernel.Recovery

/-! What a call of `#live` leaves behind once its transaction may be on chain. -/
namespace RatifyOs.Kernel
open Async Data
open Async.Program hiding pure throw

def recovers : Event Call Choice → Bool
  | .start .recover => true
  | _ => false

/-- Everything in the history was allowed after what is older. -/
def Lawful (h : Log) : Prop := ∀ newer entry older, h = newer ++ entry :: older → allow older entry.1

/-- The state of the pool when every call in it is one of `#live`. -/
structure Alone (d : Deployment) (p : Pool) : Prop where
  kept : Kept p
  started : ∀ i t, p.threads i = some t → t.history = [] → ∃ intent o, t.program = Call.program d (.live intent o)
  unlisted : ∀ i t id, p.threads i = some t → t.history.any (lists id) = false
  lawful : ∀ i t, p.threads i = some t → Lawful t.history
  honest : ∀ i t, p.threads i = some t → t.history.any breaks = false
  mirrored : ∀ i t id, p.threads i = some t → t.history.any (inserts id) →
    (p.state.getTrade id).map (·.state) = lastWrite id t.history

private theorem breaks_mayFail {op : Op} (unsure : op.mayFail) (answer : Except Failure op.Ans) :
    breaks ⟨op,answer⟩ = false := by
  cases answer with
  | ok value => rfl
  | error error => simp [breaks,unsure]

theorem breaks_handle (choice : Choice) (op : Op) (s : KernelStore) : breaks ⟨op,(handle choice op s).1⟩ = false := by
  cases op <;> first | exact breaks_mayFail rfl _ | rfl

private theorem map_state_of_marks {s s' : KernelStore} {id : String}
    (same : (s'.getTrade id).map TradeRow.marks = (s.getTrade id).map TradeRow.marks) :
    (s'.getTrade id).map (·.state) = (s.getTrade id).map (·.state) := by
  have first := congrArg (Option.map Prod.fst) same
  rw [Option.map_map,Option.map_map] at first
  exact first

private theorem writeOf_silent {id : String} {entry : Record} (silent : writes id entry = false)
    (other : inserts id entry = false) : writeOf id entry = none := by
  obtain ⟨op,answer⟩ := entry
  cases op with
  | setState name state now => simpa [writeOf,writes] using silent
  | fail name state error now => simpa [writeOf,writes] using silent
  | insertTrade row reservationId =>
    cases answer with
    | ok value => simpa [writeOf,inserts] using other
    | error error => rfl
  | _ => rfl

section Step
variable {d : Deployment} {p : Pool} {i : ℕ} {op : Op} {next : Except Failure op.Ans → Gateway Unit} {history : Log}

private theorem mirrored_self (choice : Choice) (alone : Alone d p) (here : p.threads i = some ⟨.perform op next,history⟩)
    (allowed : allow history op) {id : String} (own : (⟨op,(handle choice op p.state).1⟩ :: history : Log).any (inserts id)) :
    ((handle choice op p.state).2.getTrade id).map (·.state) =
      lastWrite id (⟨op,(handle choice op p.state).1⟩ :: history) := by
  rw [List.any_cons,Bool.or_eq_true] at own
  unfold lastWrite
  cases tradeStep choice p.state op id with
  | kept silent other row =>
    rw [writeOf_silent silent other,map_state_of_marks row]
    rcases own with now | before
    · rw [other] at now
      cases now
    · exact alone.mirrored i _ id here before
  | inserted row reservationId entry named _ there =>
    have state := congrArg (Option.map Prod.fst) there
    rw [Option.map_map] at state
    rw [entry]
    simpa [writeOf,named,TradeRow.marks] using state
  | written state writing what row =>
    rw [what]
    have first := congrArg (Option.map Prod.fst) row
    simp only [Option.map_map] at first
    obtain ⟨old,found⟩ := Option.isSome_iff_exists.mp (written_row alone.kept here allowed writing)
    rw [found] at first
    exact first

private theorem mirrored_other (choice : Choice) (alone : Alone d p) (here : p.threads i = some ⟨.perform op next,history⟩)
    (allowed : allow history op) {j : ℕ} {t : Thread Op Op.Ans Failure} (other : j ≠ i) (there : p.threads j = some t)
    {id : String} (own : t.history.any (inserts id)) :
    ((handle choice op p.state).2.getTrade id).map (·.state) = lastWrite id t.history := by
  rw [← alone.mirrored j t id there own]
  cases tradeStep choice p.state op id with
  | kept _ _ row => exact map_state_of_marks row
  | inserted _ _ _ _ absent _ =>
    have some_ := (alone.kept.known j t there).row id own
    rw [absent] at some_
    cases some_
  | written _ writing _ _ =>
    rcases allow_writes allowed writing with mine | listed
    · exact absurd (alone.kept.unique j i t _ id there here own mine) other
    · rw [alone.unlisted i _ id here] at listed
      cases listed

private theorem unlisted_self (alone : Alone d p) (here : p.threads i = some ⟨.perform op next,history⟩)
    (allowed : allow history op) (answer : Except Failure op.Ans) (id : String) :
    (⟨op,answer⟩ :: history : Log).any (lists id) = false := by
  rw [List.any_cons,alone.unlisted i _ id here,Bool.or_false]
  cases op with
  | pendingSent =>
    obtain ⟨intent,o,same⟩ := alone.started i _ here allowed
    cases same
  | _ => rfl

end Step

private theorem alone_initial (d : Deployment) : Alone d (Config.initial .empty) where
  kept := (kept_run d []).2
  started i t found := by simp [Config.initial] at found
  unlisted i t id found := by simp [Config.initial] at found
  lawful i t found := by simp [Config.initial] at found
  honest i t found := by simp [Config.initial] at found
  mirrored i t id found := by simp [Config.initial] at found

private theorem alone_step (d : Deployment) (p : Pool) (event : Event Call Choice)
    (obeys : System.Obeys allow Settles p) (lives : recovers event = false) (alone : Alone d p) :
    Alone d ((kernel d).step p event) := by
  have kept := kept_step d p event obeys alone.kept
  cases event with
  | start call =>
    have known : ∀ j t, ((kernel d).step p (.start call)).threads j = some t →
        t = ⟨(kernel d).program call,[]⟩ ∨ p.threads j = some t := by
      intro j t found
      cases (kernel d).thread_of_step found with
      | started _ same fresh =>
        cases same
        exact .inl fresh
      | resumed _ _ _ _ performed _ _ => cases performed
      | kept there _ => exact .inr there
    refine ⟨kept,?_,?_,?_,?_,?_⟩
    · intro j t found
      rcases known j t found with rfl | there
      · intro _
        cases call with
        | live intent o => exact ⟨intent,o,rfl⟩
        | recover => cases lives
      · exact alone.started j t there
    · intro j t id found
      rcases known j t found with rfl | there
      · rfl
      · exact alone.unlisted j t id there
    · intro j t found
      rcases known j t found with rfl | there
      · intro newer entry older split
        simp at split
      · exact alone.lawful j t there
    · intro j t found
      rcases known j t found with rfl | there
      · rfl
      · exact alone.honest j t there
    · intro j t id found own
      rcases known j t found with rfl | there
      · cases own
      · exact alone.mirrored j t id there own
  | ambient choice => exact alone
  | crash =>
    refine ⟨kept,?_,?_,?_,?_,?_⟩ <;> intro i t <;> simp [System.step]
  | perform i choice =>
    rcases (kernel d).perform_cases p i choice with ⟨op,next,history,here⟩ | idle
    · have allowed : allow history op := obeys.allowed here
      rw [(kernel d).perform_eq here] at kept ⊢
      refine ⟨kept,?_,?_,?_,?_,?_⟩
      · intro j t found empty
        rcases thread_after choice found with ⟨rfl,same⟩ | ⟨_,there⟩
        · rw [same] at empty
          cases empty
        · exact alone.started j t there empty
      · intro j t id found
        rcases thread_after choice found with ⟨rfl,same⟩ | ⟨_,there⟩
        · rw [same]
          exact unlisted_self alone here allowed _ id
        · exact alone.unlisted j t id there
      · intro j t found
        rcases thread_after choice found with ⟨rfl,same⟩ | ⟨_,there⟩
        · rw [same]
          intro newer entry older split
          cases newer with
          | nil =>
            obtain ⟨rfl,rfl⟩ := List.cons.inj split
            exact allowed
          | cons newest newer =>
            obtain ⟨_,split⟩ := List.cons.inj split
            exact alone.lawful j _ here newer entry older split
        · exact alone.lawful j t there
      · intro j t found
        rcases thread_after choice found with ⟨rfl,same⟩ | ⟨_,there⟩
        · rw [same,List.any_cons,breaks_handle,alone.honest j _ here]
          rfl
        · exact alone.honest j t there
      · intro j t id found own
        rcases thread_after choice found with ⟨rfl,same⟩ | ⟨other,there⟩
        · rw [same] at own ⊢
          exact mirrored_self choice alone here allowed own
        · exact mirrored_other choice alone here allowed other there own
    · rw [idle]
      exact alone

/-- The call has ended. -/
def Ended (t : Thread Op Op.Ans Failure) : Prop :=
  (∃ value, t.program = .pure value) ∨ ∃ error, t.program = .throw error

/-- From the broadcast on, a reservation is only released after something has unsettled the trade;
where the confirmer has said `confirmed` and no balance read has failed after that, the call ends
with its reservation consumed and its trade confirmed. -/
theorem outcome_kept (d : Deployment) (events : List (Event Call Choice))
    (meets : (kernel d).Meets (fun _ event => recovers event = false) (Config.initial .empty) events) :
    let p := (kernel d).run (Config.initial .empty) events
    ∀ i t, p.threads i = some t →
      (∀ newer r answer older, t.history = newer ++ ⟨.releaseReservation r,answer⟩ :: older →
        older.any broadcasts → excused older) ∧
      (Ended t → concluded t.history →
        (∀ id, t.history.any (inserts id) → (p.state.getTrade id).map (·.state) = some .confirmed) ∧
        ∀ r, t.history.any (owns r) → spendState p.state r = some .consumed) := by
  intro p i t found
  obtain ⟨obeys,alone⟩ := (kernel d).run_induction (program_wp d) (fun _ event => recovers event = false) (Alone d)
    (fun p event obeys lives alone => alone_step d p event obeys lives alone) (System.obeys_initial _) (alone_initial d)
    events meets
  have honest := alone.honest i t found
  refine ⟨?_,?_⟩
  · intro newer r answer older split handed
    have allowed : allow older (.releaseReservation r) := alone.lawful i t found newer _ older split
    rcases allowed.2 handed with excused | broken
    · exact excused
    · obtain ⟨entry,inside,breaks⟩ := List.any_eq_true.mp broken
      have there : t.history.any RatifyOs.Kernel.breaks = true :=
        List.any_eq_true.mpr ⟨entry,by rw [split]; simp [inside],breaks⟩
      rw [honest] at there
      cases there
  · intro ended done
    have settles : Settles t.history := by
      have good := (obeys i t found).1
      obtain ⟨program,history⟩ := t
      rcases ended with ⟨value,same⟩ | ⟨error,same⟩
      · rw [show program = .pure value from same] at good
        exact good
      · rw [show program = .throw error from same] at good
        exact good
    rcases settles done with broken | ⟨confirmed,consumed⟩
    · rw [honest] at broken
      cases broken
    · refine ⟨?_,?_⟩
      · intro id own
        rw [alone.mirrored i t id found own]
        exact confirmed id own
      · intro r own
        obtain ⟨entry,inside,consumes⟩ := List.any_eq_true.mp (consumed r own)
        exact alone.kept.spent r (List.any_eq_true.mpr ⟨entry,alone.kept.recorded i t found inside,consumes⟩)

namespace Sample

/-- The bytes are taken and the answer of the broadcast is lost. -/
def lostReply : (op : Op) → Except Failure op.Ans
  | .broadcast _ _ _ => .error (.other "fetch failed")
  | op => reply op

/-- One trade to its end. -/
def trade (reply : (op : Op) → Except Failure op.Ans) : List (Event Call Choice) :=
  .start (.live intent ⟨"key",true⟩) :: stepsWith reply 0 32

def answersLost : Record → Bool
  | ⟨.confirm _ _,.ok status⟩ => status ≠ .confirmed
  | _ => false

end Sample

open Sample in
theorem outcome_kept_trade :
    (((kernel deployment).run start (trade reply)).state.getTrade "id").map (·.state) = some .confirmed ∧
      spendState ((kernel deployment).run start (trade reply)).state "id" = some .consumed := by
  have meets : (kernel deployment).Meets (fun _ event => recovers event = false) start (trade reply) := by decide +kernel
  have run : ((kernel deployment).run start (trade reply)).threads 0 |>.any fun t =>
      returned t && concluded t.history && t.history.any (inserts "id") && t.history.any (owns "id") := by decide +kernel
  cases found : ((kernel deployment).run start (trade reply)).threads 0 with
  | none =>
    rw [found] at run
    cases run
  | some t =>
    rw [found,Option.any_some,Bool.and_eq_true,Bool.and_eq_true,Bool.and_eq_true] at run
    obtain ⟨⟨⟨ended,done⟩,own⟩,owned⟩ := run
    have ended : Ended t := by
      obtain ⟨program,history⟩ := t
      cases program with
      | pure value => exact .inl ⟨value,rfl⟩
      | throw error => exact .inr ⟨error,rfl⟩
      | perform op next => cases ended
    have kept := ((outcome_kept deployment (trade reply) meets) 0 t found).2 ended done
    exact ⟨kept.1 "id" own,kept.2 "id" owned⟩

open Sample in
/-- The broadcast throws after the bytes were handed over, and the reservation is released
although the confirmer was never asked. -/
theorem outcome_unknown :
    ((kernel deployment).run start (trade lostReply)).trace.any broadcasts = true ∧
      ((kernel deployment).run start (trade lostReply)).trace.any answersLost = false ∧
      spendState ((kernel deployment).run start (trade lostReply)).state "id" = some .released := by
  decide +kernel

end RatifyOs.Kernel
