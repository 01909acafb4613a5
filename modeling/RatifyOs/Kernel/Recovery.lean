import RatifyOs.Kernel.Discipline

/-! The trades that were handed to a broadcaster, over crashes and recoveries. -/
namespace RatifyOs.Kernel
open Async Data
open Async.Program hiding pure throw

namespace KernelStore

theorem getTrade_updateTrade (s : KernelStore) (name id : String) (change : TradeRow → TradeRow) :
    (s.updateTrade name change).getTrade id =
      if id = name then (s.getTrade id).map fun row => { change row with id := row.id } else s.getTrade id := by
  unfold updateTrade getTrade
  cases found : s.trades.find? name with
  | none =>
    by_cases same : id = name
    · subst same
      simp [found]
    · simp [same]
  | some row =>
    have named := Table.key_of_find? found
    dsimp only
    rw [Table.find?_put]
    by_cases same : id = name
    · subst same
      rw [if_pos named,if_pos rfl,found]
      rfl
    · rw [if_neg same,if_neg]
      exact fun here => same (here.symm.trans named)

theorem find?_setSpend (s : KernelStore) (id r : String) (from_ : SpendState → Bool) (state : SpendState) :
    (s.setSpend id from_ state).spends.find? r =
      if r = id then (s.spends.find? r).map fun x => if from_ x.state then { x with state } else x
      else s.spends.find? r := by
  unfold setSpend
  cases found : s.spends.find? id with
  | none =>
    by_cases same : r = id
    · subst same
      simp [found]
    · simp [same]
  | some x =>
    have named := Table.key_of_find? found
    by_cases same : r = id
    · subst same
      by_cases allowed : from_ x.state
      · simp only [allowed,if_true,Table.find?_put]
        rw [if_pos named,found]
        simp [allowed]
      · simp [allowed,found]
    · rw [if_neg same]
      dsimp only
      split
      · dsimp only
        rw [Table.find?_put_of_ne]
        exact fun here => same (here.symm.trans named)
      · rfl

end KernelStore

def TradeRow.marks (row : TradeRow) : TradeState × Option String := (row.state,row.reservationId)

def spendState (s : KernelStore) (r : String) : Option SpendState := (s.spends.find? r).map (·.state)

/-- What an effect does to the row of a trade. -/
inductive TradeStep (id : String) (s s' : KernelStore) (entry : Record) : Prop where
  | kept (silent : writes id entry = false) (other : inserts id entry = false)
      (row : (s'.getTrade id).map TradeRow.marks = (s.getTrade id).map TradeRow.marks)
  | inserted (row : NewTradeRow) (reservationId : Option String) (fresh : entry = ⟨.insertTrade row reservationId,.ok ()⟩)
      (named : row.id = id) (absent : s.getTrade id = none)
      (there : (s'.getTrade id).map TradeRow.marks = some (.reserved,reservationId))
  | written (state : TradeState) (written : writes id entry = true) (what : writeOf id entry = some state)
      (row : (s'.getTrade id).map TradeRow.marks = (s.getTrade id).map fun row => (state,row.reservationId))

/-- What an effect does to a spend. -/
inductive SpendStep (r : String) (s s' : KernelStore) (entry : Record) : Prop where
  | kept (silent : closes r entry = false) (other : owns r entry = false) (spend : spendState s' r = spendState s r)
  | reserved (owned : owns r entry = true) (absent : spendState s r = none) (there : spendState s' r = some .reserved)
  | released (released : entry = ⟨.releaseReservation r,.ok ()⟩)
      (spend : spendState s' r = (spendState s r).map fun state => if state = .reserved then .released else state)
  | consumed (consumed : entry = ⟨.consumeReservation r,.ok ()⟩) (spend : spendState s' r = (spendState s r).map fun _ => .consumed)

section Handle
variable (choice : Choice) (s : KernelStore)

private theorem insertTrade_step (row : NewTradeRow) (reservationId : Option String) (id : String) :
    TradeStep id s (handle choice (.insertTrade row reservationId) s).2
      ⟨.insertTrade row reservationId,(handle choice (.insertTrade row reservationId) s).1⟩ := by
  simp only [handle,KernelStore.insertTrade]
  split
  · exact .kept rfl rfl rfl
  · split
    · rename_i trades inserted
      have found := Table.find?_insert? inserted id
      by_cases same : row.id = id
      · refine .inserted row reservationId rfl same ?_ ?_
        · rw [← same]
          exact (Table.insert?_eq_some_iff.mp inserted).1
        · change (trades.find? id).map TradeRow.marks = _
          rw [found,if_pos same]
          rfl
      · refine .kept rfl (by simp [Prod.map,Except.mapError,inserts,same]) ?_
        change (trades.find? id).map TradeRow.marks = _
        rw [found,if_neg same]
        rfl
    · exact .kept rfl rfl rfl

private theorem updateTrade_step {op : Op} {name : String} {change : TradeRow → TradeRow} (id : String)
    (answer : Except Failure op.Ans) (owner : ∀ row, (change row).reservationId = row.reservationId)
    (silent : inserts id ⟨op,answer⟩ = false)
    (moves : (∃ state, (∀ row, (change row).state = state) ∧ writes id ⟨op,answer⟩ = decide (name = id) ∧
      writeOf id ⟨op,answer⟩ = if name = id then some state else none) ∨
      writes id ⟨op,answer⟩ = false ∧ ∀ row, (change row).state = row.state) :
    TradeStep id s (s.updateTrade name change) ⟨op,answer⟩ := by
  have found := s.getTrade_updateTrade name id change
  by_cases same : id = name
  · subst same
    rw [if_pos rfl] at found
    obtain ⟨state,states,written,what⟩ | ⟨quiet,states⟩ := moves
    · refine .written state (by simp [written]) (by simp [what]) ?_
      rw [found,Option.map_map]
      congr 1
      funext row
      simp [TradeRow.marks,states,owner]
    · refine .kept quiet silent ?_
      rw [found,Option.map_map]
      congr 1
      funext row
      simp [TradeRow.marks,states,owner]
  · rw [if_neg same] at found
    refine .kept ?_ silent (by rw [found])
    obtain ⟨_,_,written,_⟩ | ⟨quiet,_⟩ := moves
    · rw [written,decide_eq_false_iff_not]
      exact fun here => same here.symm
    · exact quiet

theorem tradeStep (op : Op) (id : String) : TradeStep id s (handle choice op s).2 ⟨op,(handle choice op s).1⟩ := by
  cases op with
  | insertTrade row reservationId => exact insertTrade_step choice s row reservationId id
  | persistSigned name wire signature now =>
    exact updateTrade_step s id _ (fun _ => rfl) rfl (.inr ⟨rfl,fun _ => rfl⟩)
  | setSignature name signature now => exact updateTrade_step s id _ (fun _ => rfl) rfl (.inr ⟨rfl,fun _ => rfl⟩)
  | setState name state now =>
    exact updateTrade_step s id _ (fun _ => rfl) rfl (.inl ⟨state,fun _ => rfl,rfl,rfl⟩)
  | fail name state error now =>
    exact updateTrade_step s id _ (fun _ => rfl) rfl (.inl ⟨state,fun _ => rfl,rfl,rfl⟩)
  | claimIdempotency key tradeId now =>
    refine .kept rfl rfl ?_
    simp only [handle,KernelStore.claimIdempotency]
    split <;> rfl
  | reserve args =>
    refine .kept rfl rfl ?_
    simp only [handle,KernelStore.reserve]
    split_ifs <;> try rfl
    split <;> rfl
  | releaseReservation r =>
    refine .kept rfl rfl ?_
    simp only [handle,KernelStore.releaseReservation,KernelStore.setSpend]
    split
    · split <;> rfl
    · rfl
  | consumeReservation r =>
    refine .kept rfl rfl ?_
    simp only [handle,KernelStore.consumeReservation,KernelStore.setSpend]
    split
    · split <;> rfl
    · rfl
  | _ => exact .kept rfl rfl rfl

private theorem reserve_step (args : ReserveArgs) (r : String) :
    SpendStep r s (handle choice (.reserve args) s).2 ⟨.reserve args,(handle choice (.reserve args) s).1⟩ := by
  simp only [handle,KernelStore.reserve]
  split_ifs
  · exact .kept rfl rfl rfl
  · exact .kept rfl rfl rfl
  · exact .kept rfl rfl rfl
  · split
    · rename_i spends inserted
      have found := Table.find?_insert? inserted r
      by_cases same : choice.id = r
      · subst same
        refine .reserved (by simp [Prod.map,Except.mapError,owns]) ?_ ?_
        · rw [spendState,(Table.insert?_eq_some_iff.mp inserted).1]
          rfl
        · change (spends.find? choice.id).map (·.state) = _
          rw [found,if_pos rfl]
          rfl
      · refine .kept rfl (by simp [Prod.map,Except.mapError,owns,same]) ?_
        change (spends.find? r).map (·.state) = _
        rw [found,if_neg same]
        rfl
    · exact .kept rfl rfl rfl

theorem spendStep (op : Op) (r : String) : SpendStep r s (handle choice op s).2 ⟨op,(handle choice op s).1⟩ := by
  cases op with
  | reserve args => exact reserve_step choice s args r
  | releaseReservation id =>
    have found := s.find?_setSpend id r (fun old => old = .reserved) .released
    by_cases same : r = id
    · subst same
      refine .released rfl ?_
      rw [if_pos rfl] at found
      change ((s.setSpend r (fun old => old = .reserved) .released).spends.find? r).map (·.state) = _
      rw [found,spendState,Option.map_map,Option.map_map]
      congr 1
      funext x
      simp only [Function.comp_apply,decide_eq_true_eq]
      split <;> rfl
    · refine .kept (by simpa [closes] using fun here => same here.symm) rfl ?_
      rw [if_neg same] at found
      exact congrArg (Option.map _) found
  | consumeReservation id =>
    have found := s.find?_setSpend id r (fun _ => true) .consumed
    by_cases same : r = id
    · subst same
      refine .consumed rfl ?_
      rw [if_pos rfl] at found
      change ((s.setSpend r (fun _ => true) .consumed).spends.find? r).map (·.state) = _
      rw [found,spendState,Option.map_map,Option.map_map]
      congr 1
    · refine .kept (by simpa [closes] using fun here => same here.symm) rfl ?_
      rw [if_neg same] at found
      exact congrArg (Option.map _) found
  | claimIdempotency key tradeId now =>
    refine .kept rfl rfl ?_
    simp only [handle,KernelStore.claimIdempotency]
    split <;> rfl
  | insertTrade row reservationId =>
    refine .kept rfl rfl ?_
    simp only [handle,KernelStore.insertTrade]
    split
    · rfl
    · split <;> rfl
  | persistSigned name wire signature now =>
    refine .kept rfl rfl ?_
    simp only [handle,KernelStore.persistSigned,KernelStore.updateTrade]
    split <;> rfl
  | setSignature name signature now =>
    refine .kept rfl rfl ?_
    simp only [handle,KernelStore.setSignature,KernelStore.updateTrade]
    split <;> rfl
  | setState name state now =>
    refine .kept rfl rfl ?_
    simp only [handle,KernelStore.setState,KernelStore.updateTrade]
    split <;> rfl
  | fail name state error now =>
    refine .kept rfl rfl ?_
    simp only [handle,KernelStore.fail,KernelStore.updateTrade]
    split <;> rfl
  | _ => exact .kept rfl rfl rfl

theorem signature_kept (op : Op) {id : String} {row : TradeRow} (found : s.getTrade id = some row) :
    ∃ row', (handle choice op s).2.getTrade id = some row' ∧ (row.signature.isSome → row'.signature.isSome) ∧
      (signs id ⟨op,(handle choice op s).1⟩ → row'.signature.isSome) := by
  have updated (name : String) (change : TradeRow → TradeRow) (keeps : row.signature.isSome → (change row).signature.isSome)
      (gives : name = id → signs id ⟨op,(handle choice op s).1⟩ → (change row).signature.isSome)
      (mine : signs id ⟨op,(handle choice op s).1⟩ → name = id) :
      ∃ row', (s.updateTrade name change).getTrade id = some row' ∧ (row.signature.isSome → row'.signature.isSome) ∧
        (signs id ⟨op,(handle choice op s).1⟩ → row'.signature.isSome) := by
    rw [s.getTrade_updateTrade name id change]
    by_cases same : id = name
    · rw [if_pos same,found]
      exact ⟨_,rfl,keeps,gives same.symm⟩
    · rw [if_neg same]
      exact ⟨row,found,fun signed => signed,fun signing => absurd (mine signing).symm same⟩
  cases op with
  | persistSigned name wire signature now =>
    exact updated name _ (fun _ => rfl) (fun _ _ => rfl) (fun signing => of_decide_eq_true signing)
  | setSignature name signature now =>
    exact updated name _ (fun _ => rfl) (fun _ _ => rfl) (fun signing => of_decide_eq_true signing)
  | setState name state now => exact updated name _ (fun signed => signed) (fun _ signing => by cases signing) (fun signing => by cases signing)
  | fail name state error now => exact updated name _ (fun signed => signed) (fun _ signing => by cases signing) (fun signing => by cases signing)
  | insertTrade new reservationId =>
    refine ⟨row,?_,fun signed => signed,fun signing => by cases signing⟩
    simp only [handle,KernelStore.insertTrade]
    split
    · exact found
    · split
      · rename_i trades inserted
        change trades.find? id = some row
        rw [Table.find?_insert? inserted id,if_neg]
        · exact found
        · intro same
          have absent := (Table.insert?_eq_some_iff.mp inserted).1
          rw [same] at absent
          cases found.symm.trans absent
      · exact found
  | claimIdempotency key tradeId now =>
    refine ⟨row,?_,fun signed => signed,fun signing => by cases signing⟩
    simp only [handle,KernelStore.claimIdempotency]
    split <;> exact found
  | reserve args =>
    refine ⟨row,?_,fun signed => signed,fun signing => by cases signing⟩
    simp only [handle,KernelStore.reserve]
    split_ifs <;> try exact found
    split <;> exact found
  | releaseReservation r =>
    refine ⟨row,?_,fun signed => signed,fun signing => by cases signing⟩
    simp only [handle,KernelStore.releaseReservation,KernelStore.setSpend]
    split
    · split <;> exact found
    · exact found
  | consumeReservation r =>
    refine ⟨row,?_,fun signed => signed,fun signing => by cases signing⟩
    simp only [handle,KernelStore.consumeReservation,KernelStore.setSpend]
    split
    · split <;> exact found
    · exact found
  | _ => exact ⟨row,found,fun signed => signed,fun signing => by cases signing⟩

end Handle

theorem TradeStep.isSome {id : String} {s s' : KernelStore} {entry : Record} (step : TradeStep id s s' entry)
    (there : (s.getTrade id).isSome) : (s'.getTrade id).isSome := by
  rw [← Option.isSome_map (f := TradeRow.marks)]
  cases step with
  | kept _ _ row => simpa [row] using there
  | inserted _ _ _ _ absent _ => simp [absent] at there
  | written _ _ _ row => simpa [row] using there

theorem SpendStep.isSome {r : String} {s s' : KernelStore} {entry : Record} (step : SpendStep r s s' entry)
    (there : (spendState s r).isSome) : (spendState s' r).isSome := by
  cases step with
  | kept _ _ spend => rwa [spend]
  | reserved _ _ now => simp [now]
  | released _ spend => simpa [spend] using there
  | consumed _ spend => simpa [spend] using there

/-- What a call knows of the trades and spends it has made or was told of. -/
structure Known (p : Pool) (h : Log) : Prop where
  row : ∀ id, h.any (inserts id) → (p.state.getTrade id).isSome
  listed : ∀ id, h.any (lists id) → p.trace.any (writes id)
  spend : ∀ r, h.any (owns r) ∨ h.any (listsReservation r) → (spendState p.state r).isSome
  /-- Nobody else is the first to write the state of its trade. -/
  own : ∀ id, h.any (inserts id) → p.trace.any (writes id) → h.any (writes id)

structure Kept (p : Pool) : Prop where
  unique : ∀ i j t u id, p.threads i = some t → p.threads j = some u → t.history.any (inserts id) →
    u.history.any (inserts id) → i = j
  known : ∀ i t, p.threads i = some t → Known p t.history
  written : ∀ id, p.trace.any (writes id) → (p.state.getTrade id).isSome
  fresh : ∀ id state reservationId, (p.state.getTrade id).map TradeRow.marks = some (state,reservationId) →
    (state = .reserved ↔ p.trace.any (writes id) = false) ∧ ∀ r, reservationId = some r → (spendState p.state r).isSome
  ended : ∀ id, p.trace.any (ends id) → ∃ row, p.state.getTrade id = some row ∧ row.state.terminal
  closed : ∀ r, p.trace.any (closes r) → ∃ state, spendState p.state r = some state ∧ state ≠ .reserved
  spent : ∀ r, p.trace.any (consumes r) → spendState p.state r = some .consumed
  signed : ∀ id, p.trace.any (signs id) → ∃ row, p.state.getTrade id = some row ∧ row.signature.isSome
  sent : ∀ id row, p.state.getTrade id = some row → row.state = .sent → row.signature.isSome
  recorded : ∀ i t, p.threads i = some t → t.history ⊆ p.trace

private theorem kept_initial : Kept (Config.initial .empty) where
  unique i j t u id found := by simp [Config.initial] at found
  known i t found := by simp [Config.initial] at found
  written id there := by simp [Config.initial] at there
  fresh id state reservationId there := by
    simp [Config.initial,KernelStore.getTrade,KernelStore.empty] at there
  ended id there := by simp [Config.initial] at there
  closed r there := by simp [Config.initial] at there
  spent r there := by simp [Config.initial] at there
  signed id there := by simp [Config.initial] at there
  sent id row there := by simp [Config.initial,KernelStore.getTrade,KernelStore.empty] at there
  recorded i t found := by simp [Config.initial] at found

/-- Only its own call, or one that has listed it, writes the state of a trade. -/
theorem allow_writes {h : Log} {op : Op} (allowed : allow h op) {id : String} {answer : Except Failure op.Ans}
    (writing : writes id ⟨op,answer⟩) : h.any (inserts id) ∨ h.any (lists id) := by
  cases op with
  | setState name state now =>
    obtain rfl : name = id := by simpa [writes] using writing
    rcases allowed with ⟨_,own,_,_⟩ | ⟨_,known⟩
    · exact .inl own
    · exact known
  | fail name state error now =>
    obtain rfl : name = id := by simpa [writes] using writing
    exact allowed.2
  | _ => cases writing

/-- Only the call that made it, or one that has listed its trade, closes a reservation. -/
theorem allow_closes {h : Log} {op : Op} (allowed : allow h op) {r : String} {answer : Except Failure op.Ans}
    (closing : closes r ⟨op,answer⟩) : h.any (owns r) ∨ h.any (listsReservation r) := by
  cases op with
  | releaseReservation id =>
    obtain rfl : id = r := by simpa [closes] using closing
    exact allowed.1
  | consumeReservation id =>
    obtain rfl : id = r := by simpa [closes] using closing
    exact allowed
  | _ => cases closing

theorem writes_of_ends {id : String} {entry : Record} (ending : ends id entry) : writes id entry := by
  obtain ⟨op,answer⟩ := entry
  cases op with
  | setState name state now =>
    simp only [ends,decide_eq_true_eq] at ending
    simp [writes,ending.1]
  | fail name state error now =>
    simp only [ends,decide_eq_true_eq] at ending
    simp [writes,ending.1]
  | _ => cases ending

theorem closes_of_consumes {r : String} {entry : Record} (consuming : consumes r entry) : closes r entry := by
  obtain ⟨op,answer⟩ := entry
  cases op with
  | consumeReservation id => exact consuming
  | _ => cases consuming

section Perform
variable {p : Pool} {i : ℕ} {op : Op} {next : Except Failure op.Ans → Gateway Unit} {history : Log} (choice : Choice)

/-- The pool after the effect. -/
def after (p : Pool) (i : ℕ) (op : Op) (next : Except Failure op.Ans → Gateway Unit) (history : Log)
    (choice : Choice) : Pool :=
  { p with
    state := (handle choice op p.state).2
    threads := Function.update p.threads i
      (some ⟨next (handle choice op p.state).1,⟨op,(handle choice op p.state).1⟩ :: history⟩)
    trace := ⟨op,(handle choice op p.state).1⟩ :: p.trace }

theorem thread_after {j : ℕ} {t : Thread Op Op.Ans Failure}
    (found : (after p i op next history choice).threads j = some t) :
    (j = i ∧ t.history = ⟨op,(handle choice op p.state).1⟩ :: history) ∨ (j ≠ i ∧ p.threads j = some t) := by
  unfold after at found
  rcases System.thread_updated found with ⟨same,rfl⟩ | other
  · exact .inl ⟨same,rfl⟩
  · exact .inr other

theorem written_row (kept : Kept p) (here : p.threads i = some ⟨.perform op next,history⟩)
    (allowed : allow history op) {id : String} {answer : Except Failure op.Ans} (writing : writes id ⟨op,answer⟩) :
    (p.state.getTrade id).isSome := by
  have known : Known p history := kept.known i _ here
  rcases allow_writes allowed writing with own | listed
  · exact known.row id own
  · exact kept.written id (known.listed id listed)

private theorem listed_written (kept : Kept p) {id : String} (listing : lists id ⟨op,(handle choice op p.state).1⟩) :
    p.trace.any (writes id) := by
  cases op with
  | pendingSent =>
    obtain ⟨row,inside,named⟩ := List.any_eq_true.mp listing
    obtain ⟨there,sent⟩ := Table.mem_select.mp inside
    have found := Table.find?_of_mem there
    rw [of_decide_eq_true named] at found
    by_contra unwritten
    have marks := (kept.fresh id row.state row.reservationId (by rw [KernelStore.getTrade,found]; rfl)).1
    have reserved := marks.mpr ((Bool.not_eq_true _).mp unwritten)
    rw [of_decide_eq_true sent] at reserved
    cases reserved
  | _ => simp [lists,listings] at listing

private theorem listed_spend (kept : Kept p) {r : String}
    (listing : listsReservation r ⟨op,(handle choice op p.state).1⟩) : (spendState p.state r).isSome := by
  cases op with
  | pendingSent =>
    obtain ⟨row,inside,named⟩ := List.any_eq_true.mp listing
    obtain ⟨there,sent⟩ := Table.mem_select.mp inside
    have found := Table.find?_of_mem there
    exact (kept.fresh row.id row.state row.reservationId (by rw [KernelStore.getTrade,found]; rfl)).2 r
      (of_decide_eq_true named)
  | _ => simp [listsReservation,listings] at listing

private theorem known_after (kept : Kept p) (here : p.threads i = some ⟨.perform op next,history⟩) :
    Known (after p i op next history choice) (⟨op,(handle choice op p.state).1⟩ :: history) := by
  have known : Known p history := kept.known i _ here
  refine ⟨?_,?_,?_,?_⟩
  · intro id own
    have step := tradeStep choice p.state op id
    rw [List.any_cons,Bool.or_eq_true] at own
    rcases own with fresh | old
    · cases step with
      | kept _ other _ => rw [other] at fresh; cases fresh
      | inserted row reservationId _ _ _ there =>
        rw [← Option.isSome_map (f := TradeRow.marks)]
        change ((handle choice op p.state).2.getTrade id |>.map TradeRow.marks).isSome
        rw [there]
        rfl
      | written state writing _ _ =>
        exact absurd fresh (by cases op <;> simp_all [writes,inserts])
    · exact step.isSome (known.row id old)
  · intro id listed
    rw [List.any_cons,Bool.or_eq_true] at listed
    change List.any (_ :: p.trace) _ = true
    rw [List.any_cons,Bool.or_eq_true]
    rcases listed with fresh | old
    · exact .inr (listed_written choice kept fresh)
    · exact .inr (known.listed id old)
  · intro r either
    have step := spendStep choice p.state op r
    rw [List.any_cons,Bool.or_eq_true,List.any_cons,Bool.or_eq_true] at either
    rcases either with (fresh | old) | (fresh | old)
    · cases step with
      | kept _ other _ => rw [other] at fresh; cases fresh
      | reserved _ _ there =>
        change (spendState (handle choice op p.state).2 r).isSome
        rw [there]
        rfl
      | released entry _ => rw [entry] at fresh; cases fresh
      | consumed entry _ => rw [entry] at fresh; cases fresh
    · exact step.isSome (known.spend r (.inl old))
    · exact step.isSome (listed_spend choice kept fresh)
    · exact step.isSome (known.spend r (.inr old))
  · intro id own written
    rw [List.any_cons,Bool.or_eq_true] at own
    change List.any (_ :: p.trace) _ = true at written
    rw [List.any_cons,Bool.or_eq_true] at written ⊢
    rcases written with now | before
    · exact .inl now
    · rcases own with fresh | old
      · have there := kept.written id before
        cases tradeStep choice p.state op id with
        | kept _ other _ => rw [other] at fresh; cases fresh
        | inserted _ _ _ _ absent _ => simp [absent] at there
        | written _ writing _ _ => exact .inl writing
      · exact .inr (known.own id old before)

private theorem known_other (kept : Kept p) (here : p.threads i = some ⟨.perform op next,history⟩)
    (allowed : allow history op) {j : ℕ} {t : Thread Op Op.Ans Failure} (other : j ≠ i) (there : p.threads j = some t) :
    Known (after p i op next history choice) t.history := by
  have known := kept.known j t there
  refine ⟨?_,?_,?_,?_⟩
  · intro id own
    exact (tradeStep choice p.state op id).isSome (known.row id own)
  · intro id listed
    change List.any (_ :: p.trace) _ = true
    rw [List.any_cons,known.listed id listed,Bool.or_true]
  · intro r either
    exact (spendStep choice p.state op r).isSome (known.spend r either)
  · intro id own written
    change List.any (_ :: p.trace) _ = true at written
    rw [List.any_cons,Bool.or_eq_true] at written
    rcases written with now | before
    · rcases allow_writes allowed now with mine | listed
      · exact absurd (kept.unique j i t _ id there here own mine) other
      · exact known.own id own ((kept.known i _ here).listed id listed)
    · exact known.own id own before

private theorem unique_after (kept : Kept p) (here : p.threads i = some ⟨.perform op next,history⟩) :
    ∀ j k t u id, (after p i op next history choice).threads j = some t →
      (after p i op next history choice).threads k = some u → t.history.any (inserts id) →
        u.history.any (inserts id) → j = k := by
  -- A trade that is inserted now was nobody's before.
  have fresh {j : ℕ} {t : Thread Op Op.Ans Failure} {id : String} (there : p.threads j = some t)
      (own : t.history.any (inserts id)) (mine : (⟨op,(handle choice op p.state).1⟩ :: history : Log).any (inserts id)) :
      j = i := by
    rw [List.any_cons,Bool.or_eq_true] at mine
    rcases mine with now | before
    · have some_ := (kept.known j t there).row id own
      cases tradeStep choice p.state op id with
      | kept _ other _ => rw [other] at now; cases now
      | inserted _ _ _ _ absent _ => simp [absent] at some_
      | written _ writing _ _ => exact absurd now (by cases op <;> simp_all [writes,inserts])
    · exact kept.unique j i t _ id there here own before
  intro j k t u id first second own also
  rcases thread_after choice first with ⟨rfl,same⟩ | ⟨other,there⟩ <;>
    rcases thread_after choice second with ⟨rfl,same'⟩ | ⟨other',there'⟩
  · rfl
  · rw [same] at own
    exact (fresh there' also own).symm
  · rw [same'] at also
    exact fresh there own also
  · exact kept.unique j k t u id there there' own also

private theorem fresh_after (kept : Kept p) (here : p.threads i = some ⟨.perform op next,history⟩)
    (allowed : allow history op) (id : String) (state : TradeState) (reservationId : Option String)
    (there : ((after p i op next history choice).state.getTrade id).map TradeRow.marks = some (state,reservationId)) :
    (state = .reserved ↔ (after p i op next history choice).trace.any (writes id) = false) ∧
      ∀ r, reservationId = some r → (spendState (after p i op next history choice).state r).isSome := by
  change ((handle choice op p.state).2.getTrade id).map TradeRow.marks = _ at there
  change (_ ↔ List.any (_ :: p.trace) _ = false) ∧ _
  cases tradeStep choice p.state op id with
  | kept silent _ row =>
    have before := kept.fresh id state reservationId (row.symm.trans there)
    rw [List.any_cons,silent,Bool.false_or]
    exact ⟨before.1,fun r own => (spendStep choice p.state op r).isSome (before.2 r own)⟩
  | inserted row rid entry named absent now =>
    obtain ⟨rfl,rfl⟩ := Prod.mk.inj (Option.some.inj (now.symm.trans there))
    have unwritten : p.trace.any (writes id) = false := by
      by_contra some_
      have there := kept.written id ((Bool.not_eq_false _).mp some_)
      simp [absent] at there
    have silent : writes id ⟨op,(handle choice op p.state).1⟩ = false := by rw [entry]; rfl
    refine ⟨by simp only [List.any_cons,silent,unwritten,Bool.or_self],?_⟩
    intro r own
    obtain ⟨rfl,_⟩ := Sigma.mk.inj entry
    exact (spendStep choice p.state _ r).isSome ((kept.known i _ here).spend r (.inl (allowed.1 r own)))
  | written target writing what row =>
    have some_ : ∃ old, p.state.getTrade id = some old := Option.isSome_iff_exists.mp (written_row kept here allowed writing)
    obtain ⟨old,found⟩ := some_
    rw [row,found] at there
    obtain ⟨rfl,rfl⟩ := Prod.mk.inj (Option.some.inj there)
    have moved : target ≠ .reserved := by
      cases op with
      | setState name s now =>
        obtain rfl : name = id := by simpa [writes] using writing
        obtain rfl : s = target := by simpa [writeOf] using what
        rcases allowed with ⟨rfl,_⟩ | ⟨rfl,_⟩ <;> simp
      | fail name s error now =>
        obtain rfl : name = id := by simpa [writes] using writing
        obtain rfl : s = target := by simpa [writeOf] using what
        intro same
        subst same
        cases allowed.1
      | _ => cases writing
    refine ⟨?_,?_⟩
    · rw [List.any_cons,writing]
      simp [moved]
    · intro r own
      have before := kept.fresh id old.state old.reservationId (by rw [found]; rfl)
      exact (spendStep choice p.state op r).isSome (before.2 r own)

private theorem written_after (kept : Kept p) (here : p.threads i = some ⟨.perform op next,history⟩)
    (allowed : allow history op) (id : String) (written : (after p i op next history choice).trace.any (writes id)) :
    ((after p i op next history choice).state.getTrade id).isSome := by
  change List.any (_ :: p.trace) _ = true at written
  rw [List.any_cons,Bool.or_eq_true] at written
  have step := tradeStep choice p.state op id
  rcases written with now | before
  · exact step.isSome (written_row kept here allowed now)
  · exact step.isSome (kept.written id before)

private theorem ended_after (kept : Kept p) (here : p.threads i = some ⟨.perform op next,history⟩)
    (allowed : allow history op) (id : String) (ended : (after p i op next history choice).trace.any (ends id)) :
    ∃ row, (after p i op next history choice).state.getTrade id = some row ∧ row.state.terminal := by
  change List.any (_ :: p.trace) _ = true at ended
  rw [List.any_cons,Bool.or_eq_true] at ended
  change ∃ row, (handle choice op p.state).2.getTrade id = some row ∧ row.state.terminal
  cases tradeStep choice p.state op id with
  | kept silent _ row =>
    rcases ended with now | before
    · rw [writes_of_ends now] at silent
      cases silent
    · obtain ⟨old,found,terminal⟩ := kept.ended id before
      rw [found] at row
      obtain ⟨new,there,same⟩ := Option.map_eq_some_iff.mp row
      refine ⟨new,there,?_⟩
      rw [(Prod.mk.inj same).1]
      exact terminal
  | inserted row reservationId entry _ absent _ =>
    rcases ended with now | before
    · rw [entry] at now
      cases now
    · obtain ⟨old,found,_⟩ := kept.ended id before
      rw [absent] at found
      cases found
  | written target writing what row =>
    obtain ⟨old,found⟩ := Option.isSome_iff_exists.mp (written_row kept here allowed writing)
    rw [found] at row
    obtain ⟨new,there,same⟩ := Option.map_eq_some_iff.mp row
    refine ⟨new,there,?_⟩
    rw [(Prod.mk.inj same).1]
    cases op with
    | setState name s now =>
      obtain rfl : name = id := by simpa [writes] using writing
      obtain rfl : s = target := by simpa [writeOf] using what
      rcases allowed with ⟨rfl,own,unwritten,_⟩ | ⟨rfl,_⟩
      · -- The trade is sent once, and before anything else is written of it.
        rcases ended with now | before
        · simp [ends,TradeState.terminal] at now
        · obtain ⟨entry,inside,ending⟩ := List.any_eq_true.mp before
          have earlier : p.trace.any (writes name) := List.any_eq_true.mpr ⟨entry,inside,writes_of_ends ending⟩
          rw [(kept.known i _ here).own name own earlier] at unwritten
          cases unwritten
      · rfl
    | fail name s error now =>
      obtain rfl : s = target := by
        obtain rfl : name = id := by simpa [writes] using writing
        simpa [writeOf] using what
      exact allowed.1
    | _ => cases writing

private theorem closing_spend (kept : Kept p) (here : p.threads i = some ⟨.perform op next,history⟩)
    (allowed : allow history op) {r : String} {answer : Except Failure op.Ans} (closing : closes r ⟨op,answer⟩) :
    ∃ state, spendState p.state r = some state :=
  Option.isSome_iff_exists.mp ((kept.known i _ here).spend r (allow_closes allowed closing))

private theorem closed_after (kept : Kept p) (here : p.threads i = some ⟨.perform op next,history⟩)
    (allowed : allow history op) (r : String) (closed : (after p i op next history choice).trace.any (closes r)) :
    ∃ state, spendState (after p i op next history choice).state r = some state ∧ state ≠ .reserved := by
  change List.any (_ :: p.trace) _ = true at closed
  rw [List.any_cons,Bool.or_eq_true] at closed
  change ∃ state, spendState (handle choice op p.state).2 r = some state ∧ state ≠ .reserved
  have known : ∃ state, spendState p.state r = some state := by
    rcases closed with now | before
    · exact closing_spend kept here allowed now
    · obtain ⟨state,found,_⟩ := kept.closed r before
      exact ⟨state,found⟩
  obtain ⟨old,found⟩ := known
  cases spendStep choice p.state op r with
  | kept silent _ spend =>
    rw [spend]
    rcases closed with now | before
    · rw [silent] at now
      cases now
    · exact kept.closed r before
  | reserved _ absent _ =>
    rw [absent] at found
    cases found
  | released _ spend =>
    rw [spend,found]
    refine ⟨_,rfl,?_⟩
    dsimp only
    split
    · simp
    · assumption
  | consumed _ spend =>
    rw [spend,found]
    exact ⟨_,rfl,by simp⟩

private theorem spent_after (kept : Kept p) (here : p.threads i = some ⟨.perform op next,history⟩)
    (allowed : allow history op) (r : String) (spent : (after p i op next history choice).trace.any (consumes r)) :
    spendState (after p i op next history choice).state r = some .consumed := by
  change List.any (_ :: p.trace) _ = true at spent
  rw [List.any_cons,Bool.or_eq_true] at spent
  change spendState (handle choice op p.state).2 r = some .consumed
  cases spendStep choice p.state op r with
  | kept silent _ spend =>
    rcases spent with now | before
    · rw [closes_of_consumes now] at silent
      cases silent
    · rw [spend,kept.spent r before]
  | reserved owned absent _ =>
    rcases spent with now | before
    · cases op <;> simp_all [consumes,owns]
    · rw [kept.spent r before] at absent
      cases absent
  | released entry spend =>
    rcases spent with now | before
    · rw [entry] at now
      cases now
    · rw [spend,kept.spent r before]
      rfl
  | consumed entry spend =>
    obtain ⟨old,found⟩ := closing_spend kept here allowed
      (show closes r ⟨op,(handle choice op p.state).1⟩ = true by rw [entry]; simp [closes])
    rw [spend,found]
    rfl

private theorem signed_after (kept : Kept p) (here : p.threads i = some ⟨.perform op next,history⟩)
    (allowed : allow history op) (id : String) (signed : (after p i op next history choice).trace.any (signs id)) :
    ∃ row, (after p i op next history choice).state.getTrade id = some row ∧ row.signature.isSome := by
  change List.any (_ :: p.trace) _ = true at signed
  rw [List.any_cons,Bool.or_eq_true] at signed
  rcases signed with now | before
  · have own : history.any (inserts id) := by
      cases op with
      | persistSigned name wire signature t =>
        obtain rfl : name = id := by simpa [signs] using now
        exact allowed
      | setSignature name signature t =>
        obtain rfl : name = id := by simpa [signs] using now
        exact allowed
      | _ => cases now
    obtain ⟨row,found⟩ := Option.isSome_iff_exists.mp ((kept.known i _ here).row id own)
    obtain ⟨row',there,_,gives⟩ := signature_kept choice p.state op found
    exact ⟨row',there,gives now⟩
  · obtain ⟨row,found,has⟩ := kept.signed id before
    obtain ⟨row',there,keeps,_⟩ := signature_kept choice p.state op found
    exact ⟨row',there,keeps has⟩

private theorem sent_after (kept : Kept p) (here : p.threads i = some ⟨.perform op next,history⟩)
    (allowed : allow history op) (id : String) (row : TradeRow)
    (there : (after p i op next history choice).state.getTrade id = some row) (sent : row.state = .sent) :
    row.signature.isSome := by
  change (handle choice op p.state).2.getTrade id = some row at there
  -- A row that was there and signed is signed.
  have signed {old : TradeRow} (found : p.state.getTrade id = some old) (has : old.signature.isSome) :
      row.signature.isSome := by
    obtain ⟨row',there',keeps,_⟩ := signature_kept choice p.state op found
    cases there.symm.trans there'
    exact keeps has
  cases tradeStep choice p.state op id with
  | kept _ _ same =>
    rw [there] at same
    obtain ⟨old,found,marks⟩ := Option.map_eq_some_iff.mp same.symm
    have state : old.state = row.state := (Prod.mk.inj marks).1
    exact signed found (kept.sent id old found (state.trans sent))
  | inserted _ _ _ _ _ marks =>
    rw [there] at marks
    have state : row.state = .reserved := (Prod.mk.inj (Option.some.inj marks)).1
    rw [sent] at state
    cases state
  | written target writing what same =>
    rw [there] at same
    obtain ⟨old,found,marks⟩ := Option.map_eq_some_iff.mp same.symm
    have state : target = row.state := (Prod.mk.inj marks).1
    rw [sent] at state
    subst state
    cases op with
    | setState name s now =>
      obtain rfl : name = id := by simpa [writes] using writing
      obtain rfl : s = .sent := by simpa [writeOf] using what
      rcases allowed with ⟨_,_,_,signing⟩ | ⟨other,_⟩
      · obtain ⟨entry,inside,signs⟩ := List.any_eq_true.mp signing
        obtain ⟨old',found',has⟩ := kept.signed name (List.any_eq_true.mpr ⟨entry,kept.recorded i _ here inside,signs⟩)
        exact signed found' has
      · cases other
    | fail name s error now =>
      obtain rfl : name = id := by simpa [writes] using writing
      obtain rfl : s = .sent := by simpa [writeOf] using what
      cases allowed.1
    | _ => cases writing

end Perform

theorem kept_step (d : Deployment) (p : Pool) (event : Event Call Choice)
    (obeys : System.Obeys allow Settles p) (kept : Kept p) : Kept ((kernel d).step p event) := by
  cases event with
  | start call =>
    have known : ∀ j t, ((kernel d).step p (.start call)).threads j = some t → t.history = [] ∨ p.threads j = some t := by
      intro j t found
      cases (kernel d).thread_of_step found with
      | started _ _ fresh =>
        left
        rw [fresh]
      | resumed _ _ _ _ performed _ _ => cases performed
      | kept there _ => exact .inr there
    refine ⟨?_,?_,kept.written,kept.fresh,kept.ended,kept.closed,kept.spent,kept.signed,kept.sent,?_⟩
    · intro i j t u id first second own also
      rcases known i t first with empty | there
      · simp [empty] at own
      · rcases known j u second with empty | there'
        · simp [empty] at also
        · exact kept.unique i j t u id there there' own also
    · intro j t found
      rcases known j t found with empty | there
      · rw [empty]
        exact ⟨by simp,by simp,by simp,by simp⟩
      · exact ⟨(kept.known j t there).row,(kept.known j t there).listed,(kept.known j t there).spend,(kept.known j t there).own⟩
    · intro j t found
      rcases known j t found with empty | there
      · rw [empty]
        exact List.nil_subset _
      · exact kept.recorded j t there
  | ambient choice => exact kept
  | crash =>
    refine ⟨?_,?_,kept.written,kept.fresh,kept.ended,kept.closed,kept.spent,kept.signed,kept.sent,?_⟩
    · intro i j t u id found
      simp [System.step] at found
    · intro i t found
      simp [System.step] at found
    · intro i t found
      simp [System.step] at found
  | perform i choice =>
    rcases (kernel d).perform_cases p i choice with ⟨op,next,history,here⟩ | idle
    · rw [(kernel d).perform_eq here]
      have allowed : allow history op := obeys.allowed here
      exact {
        unique := unique_after choice kept here
        known := fun j t found => by
          rcases thread_after choice found with ⟨rfl,same⟩ | ⟨other,there⟩
          · rw [same]
            exact known_after choice kept here
          · exact known_other choice kept here allowed other there
        written := written_after choice kept here allowed
        fresh := fresh_after choice kept here allowed
        ended := ended_after choice kept here allowed
        closed := closed_after choice kept here allowed
        spent := spent_after choice kept here allowed
        signed := signed_after choice kept here allowed
        sent := sent_after choice kept here allowed
        recorded := fun j t found => by
          change t.history ⊆ _ :: p.trace
          rcases thread_after choice found with ⟨rfl,same⟩ | ⟨other,there⟩
          · rw [same]
            exact List.cons_subset_cons _ (kept.recorded j _ here)
          · exact List.subset_cons_of_subset _ (kept.recorded j t there) }
    · rw [idle]
      exact kept

theorem kept_run (d : Deployment) (events : List (Event Call Choice)) :
    System.Obeys allow Settles ((kernel d).run (Config.initial .empty) events) ∧
      Kept ((kernel d).run (Config.initial .empty) events) :=
  (kernel d).run_induction (program_wp d) (fun _ _ => True) Kept (fun p event obeys _ kept => kept_step d p event obeys kept)
    (System.obeys_initial _) kept_initial events ((kernel d).meets_of_forall (fun _ _ => trivial) _ _)

/-- The row is terminal, or on the list of the next recovery. -/
def Seen (s : KernelStore) (id : String) : Prop :=
  ∃ row, s.getTrade id = some row ∧ (row.state.terminal ∨ row ∈ s.pendingSent)

instance (s : KernelStore) (id : String) : Decidable (Seen s id) :=
  match found : s.getTrade id with
  | none => isFalse fun ⟨_,there,_⟩ => by cases found.symm.trans there
  | some row => decidable_of_iff (row.state.terminal ∨ row ∈ s.pendingSent)
    ⟨fun seen => ⟨row,found,seen⟩,fun ⟨_,there,seen⟩ => by cases found.symm.trans there; exact seen⟩

/-- The bytes have been handed to the broadcaster, or are being handed to it. -/
def Launched (t : Thread Op Op.Ans Failure) : Prop :=
  t.history.any broadcasts ∨ ∃ mode signed landHandle next, t.program = .perform (.broadcast mode signed landHandle) next

theorem seen_iff {p : Pool} (kept : Kept p) {id : String} (there : (p.state.getTrade id).isSome) :
    Seen p.state id ↔ p.trace.any (writes id) := by
  obtain ⟨row,found⟩ := Option.isSome_iff_exists.mp there
  have fresh := (kept.fresh id row.state row.reservationId (by rw [found]; rfl)).1
  have seen : Seen p.state id ↔ row.state ≠ .reserved := by
    constructor
    · intro seen
      obtain ⟨row',found',terminal⟩ := seen
      cases found.symm.trans found'
      rcases terminal with terminal | listed
      · intro reserved
        rw [reserved] at terminal
        cases terminal
      · have sent := of_decide_eq_true (Table.mem_select.mp listed).2
        rw [sent]
        simp
    · intro moved
      refine ⟨row,found,?_⟩
      by_cases sent : row.state = .sent
      · exact .inr (Table.mem_select.mpr ⟨Table.mem_of_find? found,decide_eq_true sent⟩)
      · left
        cases state : row.state <;> simp_all [TradeState.terminal]
  rw [seen,ne_eq,fresh,Bool.not_eq_false]

/-- After a crash a trade whose bytes had been handed over is seen again exactly when its state
had been written by then; a recovery that returns has looked at the signature of every trade it
listed, ended it, and closed its reservation. -/
theorem broadcast_seen (d : Deployment) (events : List (Event Call Choice)) :
    let p := (kernel d).run (Config.initial .empty) events
    (∀ i t id, p.threads i = some t → Launched t → t.history.any (inserts id) →
      (Seen ((kernel d).step p .crash).state id ↔ p.trace.any (writes id))) ∧
    (∀ row ∈ p.state.pendingSent, row.signature.isSome) ∧
    ∀ i t summary, p.threads i = some t → Ran recover t.history (.pure summary) →
      ∃ rows, ⟨.pendingSent,.ok rows⟩ ∈ t.history ∧ ∀ row ∈ rows,
        (∃ now, p.state.getTrade row.id = some now ∧ now.state.terminal) ∧
        (∀ r, truthy row.reservationId = some r → ∃ state, spendState p.state r = some state ∧ state ≠ .reserved) ∧
        ∀ signature, truthy row.signature = some signature →
          ∃ status, ⟨.confirm signature row.lastValidBlockHeight,.ok status⟩ ∈ t.history := by
  intro p
  have kept : Kept p := (kept_run d events).2
  refine ⟨?_,?_,?_⟩
  · intro i t id found _ own
    exact seen_iff kept ((kept.known i t found).row id own)
  · intro row listed
    obtain ⟨inside,sent⟩ := Table.mem_select.mp listed
    exact kept.sent row.id row (Table.find?_of_mem inside) (of_decide_eq_true sent)
  · intro i t summary found ran
    obtain ⟨_,rows,read,treated⟩ := ran.wp recover_wp
    refine ⟨rows,read,?_⟩
    intro row inside
    have grown : ∀ {f : Record → Bool}, t.history.any f → p.trace.any f := by
      intro f there
      obtain ⟨entry,inside,holds⟩ := List.any_eq_true.mp there
      exact List.any_eq_true.mpr ⟨entry,kept.recorded i t found inside,holds⟩
    obtain ⟨ended,closed,checked⟩ := treated row inside
    exact ⟨kept.ended row.id (grown ended),fun r own => kept.closed r (grown (closed r own)),checked⟩

open Sample in
theorem broadcast_seen_sent :
    Seen ((kernel deployment).step ((kernel deployment).run start (handed ++ stepsWith reply 0 5)) .crash).state "id" := by
  have run : ((kernel deployment).run start (handed ++ stepsWith reply 0 5)).threads 0 |>.any fun t =>
      t.history.any broadcasts && t.history.any (inserts "id") := by decide +kernel
  have written : ((kernel deployment).run start (handed ++ stepsWith reply 0 5)).trace.any (writes "id") := by decide +kernel
  cases found : ((kernel deployment).run start (handed ++ stepsWith reply 0 5)).threads 0 with
  | none =>
    rw [found] at run
    cases run
  | some t =>
  rw [found] at run
  obtain ⟨launched,own⟩ := Bool.and_eq_true_iff.mp run
  exact ((broadcast_seen deployment (handed ++ stepsWith reply 0 5)).1 0 t "id" found (.inl launched) own).mpr written

open Sample in
/-- The process dies once the broadcaster has answered: the row stays `reserved`, and a recovery
lists nothing and leaves the reservation as it is. -/
theorem broadcast_hidden :
    let p := (kernel deployment).run start (handed ++ stepsWith reply 0 1 ++ [.crash,.start .recover] ++ stepsWith reply 1 1)
    p.trace.any broadcasts = true ∧ ¬Seen p.state "id" ∧ (p.state.getTrade "id").map (·.state) = some .reserved ∧
      spendState p.state "id" = some .reserved ∧ (p.threads 1).any returned = true := by
  decide +kernel

end RatifyOs.Kernel
