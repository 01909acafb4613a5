import RatifyOs.Kernel.Recovery

/-! What the store says of a trade and of its reservation, and what each effect does to it. -/
namespace RatifyOs.Kernel
open Async Data

structure Mark where
  state : TradeState
  signature : Option String
  reservation : Option String

@[ext] structure Books where
  trade : String → Option Mark
  spend : String → Option SpendState

def TradeRow.mark (row : TradeRow) : Mark := ⟨row.state,row.signature,row.reservationId⟩

def books (s : KernelStore) : Books := ⟨fun id => (s.getTrade id).map TradeRow.mark,spendState s⟩

namespace Books

def mark (b : Books) (id : String) (change : Mark → Mark) : Books :=
  { b with trade := fun i => if i = id then (b.trade i).map change else b.trade i }

def enter (b : Books) (id : String) (m : Mark) : Books := { b with trade := fun i => if i = id then some m else b.trade i }

def hold (b : Books) (r : String) : Books := { b with spend := fun x => if x = r then some .reserved else b.spend x }

def respend (b : Books) (r : String) (change : SpendState → SpendState) : Books :=
  { b with spend := fun x => if x = r then (b.spend x).map change else b.spend x }

def close (b : Books) (id : String) (reservation : Option String) (state : TradeState) (spend : SpendState) : Books where
  trade i := if i = id then (b.trade i).map fun m => { m with state } else b.trade i
  spend x := if reservation = some x then some spend else b.spend x

def settle (b : Books) : Option String → (SpendState → SpendState) → Books
  | some r, change => b.respend r change
  | none, _ => b

theorem settle_mark (b : Books) (id : String) (reservation : Option String) (state : TradeState) {spend : SpendState}
    {change : SpendState → SpendState} (spent : ∀ r, reservation = some r → ∃ old, b.spend r = some old ∧ change old = spend) :
    (b.settle reservation change).mark id (fun m => { m with state }) = b.close id reservation state spend := by
  cases reservation with
  | none =>
    ext1
    · rfl
    · funext x
      simp [settle,mark,close]
  | some r =>
    obtain ⟨old,found,same⟩ := spent r rfl
    ext1
    · rfl
    · funext x
      simp only [settle,mark,close,respend,Option.some.injEq]
      by_cases here : x = r
      · subst here
        simp [found,same]
      · simp [here,Ne.symm here]

end Books

def released (old : SpendState) : SpendState := if old = .reserved then .released else old

section Effects
variable (s : KernelStore)

theorem books_updateTrade (name : String) (change : TradeRow → TradeRow) (f : Mark → Mark)
    (same : ∀ row, (change row).mark = f row.mark) : books (s.updateTrade name change) = (books s).mark name f := by
  ext1
  · funext id
    simp only [books,Books.mark,s.getTrade_updateTrade name id change]
    by_cases here : id = name
    · simp only [if_pos here,Option.map_map]
      congr 1
      funext row
      exact same row
    · simp only [if_neg here]
  · funext r
    simp only [books,Books.mark,spendState,KernelStore.updateTrade]
    split <;> rfl

theorem books_setState (id : String) (state : TradeState) (now : ℤ) :
    books (s.setState id state now) = (books s).mark id fun m => { m with state } :=
  books_updateTrade s id _ _ fun _ => rfl

theorem books_fail (id : String) (state : TradeState) (error : String) (now : ℤ) :
    books (s.fail id state error now) = (books s).mark id fun m => { m with state } :=
  books_updateTrade s id _ _ fun _ => rfl

theorem books_setSignature (id signature : String) (now : ℤ) :
    books (s.setSignature id signature now) = (books s).mark id fun m => { m with signature := some signature } :=
  books_updateTrade s id _ _ fun _ => rfl

theorem books_persistSigned (id wire signature : String) (now : ℤ) :
    books (s.persistSigned id wire signature now) = (books s).mark id fun m => { m with signature := some signature } :=
  books_updateTrade s id _ _ fun _ => rfl

theorem books_setSpend (r : String) (from_ : SpendState → Bool) (state : SpendState) (f : SpendState → SpendState)
    (same : ∀ old, (if from_ old then state else old) = f old) :
    books (s.setSpend r from_ state) = (books s).respend r f := by
  ext1
  · funext id
    simp only [books,Books.respend,KernelStore.setSpend,KernelStore.getTrade]
    split
    · split <;> rfl
    · rfl
  · funext x
    simp only [books,Books.respend,spendState,s.find?_setSpend r x from_ state]
    by_cases here : x = r
    · simp only [if_pos here,Option.map_map]
      congr 1
      funext old
      simp only [Function.comp_apply,← same]
      split <;> rfl
    · simp only [if_neg here]

theorem books_release (r : String) : books (s.releaseReservation r) = (books s).respend r released :=
  books_setSpend s r _ _ _ fun old => by simp [released]

theorem books_consume (r : String) : books (s.consumeReservation r) = (books s).respend r fun _ => .consumed :=
  books_setSpend s r _ _ _ fun old => by simp

variable (choice : Choice)

theorem books_reserve (args : ReserveArgs) :
    (∃ hour day, (handle choice (.reserve args) s).1 = .ok (.ok choice.id hour day) ∧ (books s).spend choice.id = none ∧
      books (handle choice (.reserve args) s).2 = (books s).hold choice.id) ∨
    ((∀ id hour day, (handle choice (.reserve args) s).1 ≠ .ok (.ok id hour day)) ∧
      (handle choice (.reserve args) s).2 = s) := by
  simp only [handle,KernelStore.reserve]
  split_ifs
  · exact .inr ⟨by simp [Prod.map,Except.mapError],rfl⟩
  · exact .inr ⟨by simp [Prod.map,Except.mapError],rfl⟩
  · exact .inr ⟨by simp [Prod.map,Except.mapError],rfl⟩
  · split
    · rename_i spends inserted
      refine .inl ⟨_,_,rfl,?_,?_⟩
      · exact congrArg (Option.map _) (Table.insert?_eq_some_iff.mp inserted).1
      · ext1
        · rfl
        · funext x
          change (spends.find? x).map (·.state) = _
          rw [Table.find?_insert? inserted x]
          simp only [books,Books.hold,spendState]
          by_cases here : choice.id = x
          · simp [here]
          · simp [here,Ne.symm here]
    · exact .inr ⟨by simp [Prod.map,Except.mapError],rfl⟩

theorem books_insert (row : NewTradeRow) (reservationId : Option String) :
    ((handle choice (.insertTrade row reservationId) s).1 = .ok () ∧ (books s).trade row.id = none ∧
      books (handle choice (.insertTrade row reservationId) s).2 =
        (books s).enter row.id ⟨.reserved,none,reservationId⟩) ∨
    ∃ error, (handle choice (.insertTrade row reservationId) s).1 = .error error ∧
      (handle choice (.insertTrade row reservationId) s).2 = s := by
  simp only [handle,KernelStore.insertTrade]
  split
  · exact .inr ⟨_,rfl,rfl⟩
  · split
    · rename_i trades inserted
      refine .inl ⟨rfl,?_,?_⟩
      · exact congrArg (Option.map _) (Table.insert?_eq_some_iff.mp inserted).1
      · ext1
        · funext id
          change (trades.find? id).map TradeRow.mark = _
          rw [Table.find?_insert? inserted id]
          simp only [books,Books.enter,KernelStore.getTrade]
          by_cases here : row.id = id
          · simp [here,TradeRow.mark]
          · simp [here,Ne.symm here]
        · rfl
    · exact .inr ⟨_,rfl,rfl⟩

theorem books_pending {row : TradeRow} (listed : row ∈ s.pendingSent) :
    (books s).trade row.id = some ⟨.sent,row.signature,row.reservationId⟩ := by
  obtain ⟨there,sent⟩ := Table.mem_select.mp listed
  simp only [books,KernelStore.getTrade,Table.find?_of_mem there,Option.map_some,TradeRow.mark]
  rw [of_decide_eq_true sent]

end Effects

end RatifyOs.Kernel
