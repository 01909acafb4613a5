import RatifyOs.Kernel.Turns

/-! Rows and reservations over whole runs of calls that interleave at their awaits. -/
namespace RatifyOs.Kernel
open Async Data

abbrev Courses := Stage Op Op.Ans Failure KernelStore

section Runs
variable (V : String → ConfirmStatus) (d : Deployment)

/-- The choices of the turn are honest; and where the awaited confirmation or balance read of a
sent trade fails, its row is still sent and no recovery in flight has read it. -/
def Orderly (c : Courses) : Turn Call Choice → Prop
  | .start _ choices => ∀ n, Honest V (choices n)
  | .resume i choices => (∀ n, Honest V (choices n)) ∧
    ∀ op next h, c.threads i = some ⟨.perform op next,h⟩ → op.decides → (∃ error, (choices 0).reply op = .error error) →
      ∀ id, lastWrite id h = some .sent →
        (∃ m, (books c.state).trade id = some m ∧ m.state = .sent) ∧
        ∀ j op' next' h', j ≠ i → c.threads j = some ⟨.perform op' next',h'⟩ → ∀ row ∈ listedRows h', row.id ≠ id

/-- The row of a trade and its reservation say the same. -/
def Agreed (s : KernelStore) : Prop :=
  ∀ id row r, s.getTrade id = some row → row.reservationId = some r → spendState s r = some (spendOf row.state)

/-- What has ended has stayed as it ended. -/
structure Final (s s' : KernelStore) : Prop where
  rows : ∀ id row, s.getTrade id = some row → row.state.terminal →
    ∃ row', s'.getTrade id = some row' ∧ row'.state = row.state
  spends : ∀ r x, spendState s r = some x → x ≠ .reserved → spendState s' r = some x

/-- What holds of the calls and the store at every stage. -/
structure Settled (c : Courses) : Prop where
  sane : Sane (books c.state)
  free : ∀ i, c.count ≤ i → c.threads i = none
  waits : ∀ i op next h, c.threads i = some ⟨.perform op next,h⟩ → Knows V h (books c.state) ∧
    (Program.perform op next : Gateway Unit).Ready (contract V) (fun _ => Over V) (fun _ => Over V) h
  apart : ∀ i j op next h op' next' h', i ≠ j → c.threads i = some ⟨.perform op next,h⟩ →
    c.threads j = some ⟨.perform op' next',h'⟩ →
    (∀ id, h.any (inserts id) → h'.any (inserts id) = false) ∧ ∀ r, h.any (owns r) → h'.any (owns r) = false

end Runs

section Proof
variable {V : String → ConfirmStatus} {d : Deployment} {c : Courses}

theorem Final.refl (s : KernelStore) : Final s s := ⟨fun _ row found _ => ⟨row,found,rfl⟩,fun _ _ found _ => found⟩

theorem Final.trans {s s' s'' : KernelStore} (first : Final s s') (second : Final s' s'') : Final s s'' where
  rows id row found terminal := by
    obtain ⟨row',found',same⟩ := first.rows id row found terminal
    obtain ⟨row'',found'',same'⟩ := second.rows id row' found' (by rw [same]; exact terminal)
    exact ⟨row'',found'',same'.trans same⟩
  spends r x found closed := second.spends r x (first.spends r x found closed) closed

theorem trade_of_row {s : KernelStore} {id : String} {row : TradeRow} (found : s.getTrade id = some row) :
    (books s).trade id = some row.mark := by
  change (s.getTrade id).map TradeRow.mark = _
  rw [found]
  rfl

theorem Sane.agreed {s : KernelStore} (sane : Sane (books s)) : Agreed s := by
  intro id row r found held
  exact (sane.agree id row.mark (trade_of_row found)).2 r held

theorem Over.final {origin now : Moment} (closed : Over V origin now) : Final origin.2 now.2 where
  rows id row found terminal := by
    obtain ⟨m',found',_,ended,_⟩ := closed.did.rows id row.mark (trade_of_row found)
    change (now.2.getTrade id).map TradeRow.mark = some m' at found'
    obtain ⟨row',there,rfl⟩ := Option.map_eq_some_iff.mp found'
    exact ⟨row',there,ended terminal⟩
  spends r x found closed' := by
    obtain ⟨x',found',kept,_⟩ := closed.did.spends r x found
    rw [← kept closed']
    exact found'

theorem sane_empty : Sane (books .empty) := by
  constructor <;> intros <;> contradiction

theorem program_keeps (call : Call) {s : KernelStore} (sane : Sane (books s)) :
    ((kernel d).program call).keeps (contract V) (fun _ => Over V) (fun _ => Over V) ([],s) [] s := by
  cases call with
  | live intent o =>
    simp only [kernel,Call.program,Program.keeps_bind]
    exact live_keeps sane
  | recover =>
    simp only [kernel,Call.program,Program.keeps_bind]
    exact recover_keeps sane

/-- A call has run on to its next await, or to its end. -/
structure Rested (V : String → ConfirmStatus) (origin : Moment) (t : Thread Op Op.Ans Failure) (s : KernelStore) : Prop where
  closed : Over V origin (t.history,s)
  waits : ∀ op next, t.program = .perform op next → Knows V t.history (books s) ∧
    t.program.Ready (contract V) (fun _ => Over V) (fun _ => Over V) t.history

theorem rested {choices : ℕ → Choice} (honest : ∀ n, Honest V (choices n)) (p : Gateway Unit) (n : ℕ) {origin : Moment}
    {h : Log} {s : KernelStore} (kept : p.keeps (contract V) (fun _ => Over V) (fun _ => Over V) origin h s) :
    Rested V origin ((kernel d).drain Op.awaits choices p n h s).1 ((kernel d).drain Op.awaits choices p n h s).2 := by
  have fitting : ∀ n op h state, (contract V).awaits op = false → (contract V).fits h op state (choices n) := by
    intro n op h state runs
    change op.awaits = false at runs
    refine ⟨honest n,?_⟩
    intro decides
    cases op <;> first | (cases decides; done) | cases runs
  obtain ⟨ended,ready⟩ := System.drain_keeps (s := kernel d) rfl fitting p n kept
  change Rested V origin ((kernel d).drain (contract V).awaits choices p n h s).1
    ((kernel d).drain (contract V).awaits choices p n h s).2
  generalize (kernel d).drain (contract V).awaits choices p n h s = result at ended ready ⊢
  obtain ⟨⟨program,history⟩,after⟩ := result
  cases program with
  | pure value => exact ⟨ended,by rintro _ _ ⟨⟩⟩
  | throw error => exact ⟨ended,by rintro _ _ ⟨⟩⟩
  | perform op next => exact ⟨ended.2.1,fun _ _ _ => ⟨ended.2.2,ready⟩⟩

theorem Settled.turned (settled : Settled V c) {i count : ℕ} {h : Log} {t : Thread Op Op.Ans Failure} {s : KernelStore}
    (inside : i < count) (more : c.count ≤ count) (rested : Rested V (h,c.state) t s)
    (apart : ∀ j op next h', j ≠ i → c.threads j = some ⟨.perform op next,h'⟩ →
      (∀ id, h'.any (inserts id) → h.any (inserts id) = false) ∧ ∀ r, h'.any (owns r) → h.any (owns r) = false)
    (unlisted : ∀ j op next h', j ≠ i → c.threads j = some ⟨.perform op next,h'⟩ → ∀ id, Dropped h t.history →
      lastWrite id h = some .sent → ∀ row ∈ listedRows h', row.id ≠ id) :
    Settled V ⟨s,Function.update c.threads i (some t),count⟩ := by
  have did := rested.closed.did
  have theirs : ∀ j op next h', j ≠ i → c.threads j = some ⟨.perform op next,h'⟩ →
      (∀ id, h'.any (inserts id) → t.history.any (inserts id) = false) ∧
        ∀ r, h'.any (owns r) → t.history.any (owns r) = false := by
    intro j op next h' other there
    have knows := (settled.waits j op next h' there).1
    obtain ⟨rows,reservations⟩ := apart j op next h' other there
    constructor
    · intro id own
      by_contra mine
      rcases did.mine id (by simpa using mine) with before | absent
      · rw [rows id own] at before
        cases before
      · obtain ⟨m,found,_⟩ := knows.own id own
        rw [absent] at found
        cases found
    · intro r own
      by_contra mine
      rcases did.made r (by simpa using mine) with before | absent
      · rw [reservations r own] at before
        cases before
      · have made := knows.made r own
        rw [absent] at made
        cases made
  constructor
  · exact rested.closed.sane
  · intro j beyond
    change count ≤ j at beyond
    change Function.update c.threads i (some t) j = none
    rw [Function.update_of_ne (by omega)]
    exact settled.free j (by omega)
  · intro j op next h' there
    by_cases here : j = i
    · subst here
      simp only [Function.update_self,Option.some.injEq] at there
      subst there
      exact rested.waits op next rfl
    · simp only [Function.update_of_ne here] at there
      obtain ⟨knows,ready⟩ := settled.waits j op next h' there
      obtain ⟨rows,reservations⟩ := theirs j op next h' here there
      refine ⟨knows.stable did rows reservations ?_,ready⟩
      intro id _ dropped last
      exact unlisted j op next h' here there id dropped last
  · intro j k op next h₁ op' next' h₂ other there there'
    by_cases here : j = i
    · subst here
      simp only [Function.update_self,Option.some.injEq] at there
      simp only [Function.update_of_ne (Ne.symm other)] at there'
      subst there
      obtain ⟨rows,reservations⟩ := theirs k op' next' h₂ (Ne.symm other) there'
      constructor
      · intro id mine
        by_contra own
        rw [rows id (by simpa using own)] at mine
        cases mine
      · intro r mine
        by_contra own
        rw [reservations r (by simpa using own)] at mine
        cases mine
    · simp only [Function.update_of_ne here] at there
      by_cases here' : k = i
      · subst here'
        simp only [Function.update_self,Option.some.injEq] at there'
        subst there'
        exact theirs j op next h₁ here there
      · simp only [Function.update_of_ne here'] at there'
        exact settled.apart j k op next h₁ op' next' h₂ other there there'

theorem Settled.start (settled : Settled V c) (call : Call) {choices : ℕ → Choice} (honest : ∀ n, Honest V (choices n)) :
    Settled V ((kernel d).turn Op.awaits c (.start call choices)) ∧
      Final c.state ((kernel d).turn Op.awaits c (.start call choices)).state := by
  have rested := rested (d := d) honest _ 0 (program_keeps (d := d) call settled.sane)
  refine ⟨?_,rested.closed.final⟩
  apply settled.turned (Nat.lt_succ_self _) (Nat.le_succ _) rested
  · exact fun _ _ _ _ _ _ => ⟨fun _ _ => rfl,fun _ _ => rfl⟩
  · rintro _ _ _ _ _ _ _ _ ⟨⟩

theorem Settled.resume (settled : Settled V c) {i : ℕ} {choices : ℕ → Choice} (orderly : Orderly V c (.resume i choices)) :
    Settled V ((kernel d).turn Op.awaits c (.resume i choices)) ∧
      Final c.state ((kernel d).turn Op.awaits c (.resume i choices)).state := by
  obtain ⟨honest,kept⟩ := orderly
  simp only [System.turn]
  split
  · rename_i op next h there
    obtain ⟨knows,ready⟩ := settled.waits i op next h there
    have fitting : fits V h op c.state (choices 0) :=
      ⟨honest 0,fun decides failed id last => (kept op next h there decides failed id last).1⟩
    have rested := rested (d := d) honest _ 1 (ready c.state ⟨settled.sane,knows⟩ (choices 0) fitting)
    have grown : (⟨op,((kernel d).handle (choices 0) op c.state).1⟩ :: h : Log) <:+
        ((kernel d).drain Op.awaits choices (next ((kernel d).handle (choices 0) op c.state).1) 1
          (⟨op,((kernel d).handle (choices 0) op c.state).1⟩ :: h)
          ((kernel d).handle (choices 0) op c.state).2).1.history := System.drain_grows ..
    refine ⟨?_,rested.closed.final⟩
    have inside : i < c.count := by
      by_contra beyond
      rw [settled.free i (by omega)] at there
      cases there
    apply settled.turned inside (Nat.le_refl _) rested
    · intro j op' next' h' other there'
      exact settled.apart j i op' next' h' op next h other there' there
    · rintro j op' next' h' other there' id ⟨op'',error,decides,first⟩ last
      -- the turn began with this answer and no other
      have same := List.IsSuffix.eq_of_length (List.suffix_of_suffix_length_le first grown (by simp)) (by simp)
      obtain ⟨rfl,answered⟩ : op'' = op ∧ HEq (Except.error error : Except Failure op''.Ans)
          ((kernel d).handle (choices 0) op c.state).1 := by
        injection same with entry
        injection entry with op answer
        exact ⟨op,answer⟩
      have waits : op''.awaits := by cases op'' <;> first | rfl | cases decides
      have failed : (choices 0).reply op'' = .error error := by
        have answered := eq_of_heq answered
        rw [show (kernel d).handle (choices 0) op'' c.state = ((choices 0).reply op'',c.state) from
          handle_awaits waits (choices 0) c.state] at answered
        exact answered.symm
      exact (kept op'' next h there decides ⟨error,failed⟩ id last).2 j op' next' h' other there'
  · exact ⟨settled,.refl _⟩

/-- Of the calls that wait, no two stand in each other's way, however their turns are ordered. -/
theorem settled_run {run : List (Turn Call Choice)} (settled : Settled V c)
    (orderly : (kernel d).Takes Op.awaits (Orderly V) c run) :
    Settled V ((kernel d).stage Op.awaits c run) ∧ Final c.state ((kernel d).stage Op.awaits c run).state := by
  apply System.stage_induction (R := fun c c' : Courses => Final c.state c'.state) (fun _ => .refl _) Final.trans _ settled orderly
  intro c turn settled orderly
  cases turn with
  | start call choices => exact settled.start call orderly
  | resume i choices => exact settled.resume orderly

theorem settled_initial : Settled V (.initial .empty) where
  sane := sane_empty
  free _ _ := rfl
  waits := by rintro _ _ _ _ ⟨⟩
  apart := by rintro _ _ _ _ _ _ _ _ _ ⟨⟩

/-- In a run whose turns are orderly, rows and reservations agree at every await, and what has
ended stays as it is. -/
theorem lifecycle_kept (V : String → ConfirmStatus) (d : Deployment) (before after : List (Turn Call Choice))
    (orderly : (kernel d).Takes Op.awaits (Orderly V) (.initial .empty) (before ++ after)) :
    Agreed ((kernel d).stage Op.awaits (.initial .empty) (before ++ after)).state ∧
      Final ((kernel d).stage Op.awaits (.initial .empty) before).state
        ((kernel d).stage Op.awaits (.initial .empty) (before ++ after)).state := by
  obtain ⟨first,rest⟩ := System.takes_append.mp orderly
  obtain ⟨settled,_⟩ := settled_run settled_initial first
  obtain ⟨last,final⟩ := settled_run settled rest
  have joined : (kernel d).stage Op.awaits (.initial .empty) (before ++ after) =
      (kernel d).stage Op.awaits ((kernel d).stage Op.awaits (.initial .empty) before) after := List.foldl_append
  rw [joined]
  exact ⟨last.sane.agreed,final⟩

end Proof

namespace Sample

def turns (reply : (op : Op) → Except Failure op.Ans) (i : ℕ) : Turn Call Choice :=
  .resume i fun _ => { reply, id := "id" }

/-- One trade up to its confirmation, which a recovery then waits for as well. -/
def both : List (Turn Call Choice) :=
  .start (.live intent ⟨"key",true⟩) (fun _ => { reply, id := "id" }) :: List.replicate 5 (turns reply 0) ++
    [.start .recover fun _ => { reply, id := "id" }]

def expired : (op : Op) → Except Failure op.Ans
  | .confirm _ _ => .ok .expired
  | op => reply op

theorem honest_reply : Honest (fun _ => .confirmed) { reply, id := "id" } where
  named := by decide
  judged _ _ _ same := by
    cases same
    rfl
  signed _ _ _ _ same := by
    cases same
    exact show "signature" ≠ "" by decide

theorem orderly_turns (c : Courses) (i : ℕ) : Orderly (fun _ => .confirmed) c (turns reply i) := by
  refine ⟨fun _ => honest_reply,?_⟩
  rintro op _ _ _ decides ⟨error,failed⟩
  cases op <;> first | (cases decides; done) | cases failed

/-- The recovery and the call are told the same, and close the trade twice over. -/
theorem lifecycle_kept_twice : Agreed ((kernel deployment).stage Op.awaits (.initial .empty)
    (both ++ [turns reply 1,turns reply 0,turns reply 0])).state ∧
      Final ((kernel deployment).stage Op.awaits (.initial .empty) both).state
        ((kernel deployment).stage Op.awaits (.initial .empty) (both ++ [turns reply 1,turns reply 0,turns reply 0])).state := by
  apply lifecycle_kept fun _ => .confirmed
  apply System.takes_of_forall
  simp only [both,List.replicate,List.cons_append,List.nil_append,List.forall_mem_cons]
  exact ⟨fun _ _ => honest_reply,fun c => orderly_turns c 0,fun c => orderly_turns c 0,fun c => orderly_turns c 0,
    fun c => orderly_turns c 0,fun c => orderly_turns c 0,fun _ _ => honest_reply,fun c => orderly_turns c 1,
    fun c => orderly_turns c 0,fun c => orderly_turns c 0,by simp⟩

/-- The recovery is told that the transaction has expired, and the call that it is confirmed. -/
theorem lifecycle_lost : ¬∀ (d : Deployment) (before after : List (Turn Call Choice)),
    Agreed ((kernel d).stage Op.awaits (.initial .empty) (before ++ after)).state ∧
      Final ((kernel d).stage Op.awaits (.initial .empty) before).state
        ((kernel d).stage Op.awaits (.initial .empty) (before ++ after)).state := by
  intro all
  obtain ⟨_,final⟩ := all deployment (both ++ [turns expired 1]) [turns reply 0,turns reply 0]
  have released : spendState ((kernel deployment).stage Op.awaits (.initial .empty) (both ++ [turns expired 1])).state "id" =
      some .released := by decide +kernel
  have consumed : spendState ((kernel deployment).stage Op.awaits (.initial .empty)
      (both ++ [turns expired 1] ++ [turns reply 0,turns reply 0])).state "id" = some .consumed := by decide +kernel
  rw [final.spends "id" .released released (by decide)] at consumed
  cases consumed

end Sample

end RatifyOs.Kernel
