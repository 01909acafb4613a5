import RatifyOs.Data.Window
import RatifyOs.Kernel.Store

/-! The rolling spend caps: what the check at the moment of a reservation says about every
window at every later time. -/
namespace RatifyOs.Kernel
open Data Data.Window

/-- The calls that change what counts against the caps. The clock may say anything. -/
inductive SpendCall where
  | reserve (bucket : QuoteBucket) (amount : ℤ) (tradeId : String) (now : ℤ) (reservationId : String)
  | release (id : String)
  | consume (id : String)
  deriving DecidableEq

def counted (bucket : QuoteBucket) (x : Spend) : Bool := x.bucket = bucket ∧ x.active

/-- The check for `x` would have looked at `y`. -/
def reach (width : ℤ) (x y : Spend) : Bool := y.createdAt ≥ x.createdAt - width

section Calls
variable (caps : QuoteBucket → SpendCaps)

def SpendCall.run (s : KernelStore) : SpendCall → KernelStore
  | .reserve bucket amount tradeId now reservationId =>
    (s.reserve ⟨bucket,amount,caps bucket,tradeId,now⟩ reservationId).2
  | .release id => s.releaseReservation id
  | .consume id => s.consumeReservation id

def runCalls (s : KernelStore) (calls : List SpendCall) : KernelStore := calls.foldl (SpendCall.run caps) s

/-- What is active of the bucket with a time from `a` to `b`. -/
def windowTotal (s : KernelStore) (bucket : QuoteBucket) (a b : ℤ) : ℤ :=
  total Spend.amount (fun x => counted bucket x && (a ≤ x.createdAt ∧ x.createdAt ≤ b : Bool)) s.spends.rows

structure WithinCaps (s : KernelStore) (bucket : QuoteBucket) : Prop where
  hour : ∀ a, windowTotal s bucket a (a + hourMs) ≤ (caps bucket).perHour
  day : ∀ a, windowTotal s bucket a (a + dayMs) ≤ (caps bucket).perDay
  trade : ∀ x ∈ s.spends.rows, counted bucket x → x.amount ≤ (caps bucket).perTrade

/-- No amount is negative. -/
def SpendCall.Nonneg : SpendCall → Prop
  | .reserve _ amount _ _ _ => 0 ≤ amount
  | _ => True

instance : DecidablePred SpendCall.Nonneg
  | .reserve _ amount _ _ _ => inferInstanceAs (Decidable (0 ≤ amount))
  | .release _ => isTrue trivial
  | .consume _ => isTrue trivial

/-- A spend that was released is not consumed after all. -/
def SpendCall.Keeps (s : KernelStore) : SpendCall → Prop
  | .consume id => ∀ x ∈ s.spends.find? id, x.state ≠ .released
  | _ => True

def Unrevived : KernelStore → List SpendCall → Prop
  | _, [] => True
  | s, call :: calls => call.Keeps s ∧ Unrevived (call.run caps s) calls

private structure Checked (s : KernelStore) (bucket : QuoteBucket) : Prop where
  nonneg : ∀ x ∈ s.spends.rows, 0 ≤ x.amount
  hour : Admitted Spend.amount (caps bucket).perHour (counted bucket) (reach hourMs) s.spends.rows.reverse
  day : Admitted Spend.amount (caps bucket).perDay (counted bucket) (reach dayMs) s.spends.rows.reverse
  trade : ∀ x ∈ s.spends.rows, counted bucket x → x.amount ≤ (caps bucket).perTrade

private theorem sumActive_eq (s : KernelStore) (bucket : QuoteBucket) (x : Spend) (width : ℤ) :
    s.sumActive bucket (x.createdAt - width) =
      total Spend.amount (fun y => counted bucket y && reach width x y) s.spends.rows.reverse := by
  rw [total_reverse]
  unfold KernelStore.sumActive Table.select total
  congr 2
  apply List.filter_congr
  intro y _
  simp [counted,reach,Bool.and_assoc]

private theorem reserve_cases (s : KernelStore) (args : ReserveArgs) (id : String) :
    (s.reserve args id).2 = s ∨
      ∃ spends, s.spends.insert? ⟨id,args.tradeId,args.bucket,args.amount,.reserved,args.now⟩ = some spends ∧
        (s.reserve args id).2 = { s with spends } ∧ args.amount ≤ args.caps.perTrade ∧
        s.sumActive args.bucket (args.now - hourMs) + args.amount ≤ args.caps.perHour ∧
        s.sumActive args.bucket (args.now - dayMs) + args.amount ≤ args.caps.perDay := by
  unfold KernelStore.reserve
  dsimp only
  split
  · exact .inl rfl
  split
  · exact .inl rfl
  split
  · exact .inl rfl
  split
  · rename_i perTrade perHour perDay _ spends inserted
    exact .inr ⟨spends,inserted,rfl,not_lt.mp perTrade,not_lt.mp perHour,not_lt.mp perDay⟩
  · exact .inl rfl

private theorem setSpend_rows (s : KernelStore) (id : String) (from_ : SpendState → Bool) (state : SpendState) :
    (s.setSpend id from_ state).spends.rows =
      s.spends.rows.map fun y => if y.id = id ∧ from_ y.state then { y with state } else y := by
  have unchanged : (∀ y ∈ s.spends.rows, ¬(y.id = id ∧ from_ y.state)) →
      s.spends.rows = s.spends.rows.map fun y => if y.id = id ∧ from_ y.state then { y with state } else y := by
    intro none_
    conv_lhs => rw [← List.map_id s.spends.rows]
    apply List.map_congr_left
    intro y inside
    rw [if_neg (none_ y inside)]
    rfl
  unfold KernelStore.setSpend
  cases found : s.spends.find? id with
  | none =>
    apply unchanged
    intro y inside both
    exact Table.find?_eq_none_iff.mp found y inside both.1
  | some x =>
    have only : ∀ y ∈ s.spends.rows, y.id = id → y = x := by
      intro y inside same
      have there := Table.find?_of_mem inside
      rw [same,found] at there
      exact (Option.some.inj there).symm
    by_cases allowed : from_ x.state
    · simp only [allowed,if_true]
      apply List.map_congr_left
      intro y inside
      have named : x.id = id := Table.key_of_find? found
      by_cases same : y.id = id
      · have equal := only y inside same
        subst equal
        simp [same,allowed]
      · simp [same,named]
    · simp only [allowed]
      apply unchanged
      intro y inside both
      rw [only y inside both.1] at both
      exact allowed both.2

variable {caps}

private theorem checked_setSpend {s : KernelStore} {bucket : QuoteBucket} (checked : Checked caps s bucket) (id : String)
    {from_ : SpendState → Bool} (active : ∀ old, from_ old → old ≠ .released) (state : SpendState) :
    Checked caps (s.setSpend id from_ state) bucket := by
  have rows := setSpend_rows s id from_ state
  have fewer : ∀ y : Spend, counted bucket (if y.id = id ∧ from_ y.state then { y with state } else y) → counted bucket y := by
    intro y counts
    by_cases changed : y.id = id ∧ from_ y.state
    · rw [if_pos changed] at counts
      have alive : y.state = .reserved ∨ y.state = .consumed := by
        have other := active _ changed.2
        revert other
        cases y.state <;> simp
      simp only [counted,Spend.active,decide_eq_true_eq] at counts ⊢
      exact ⟨counts.1,alive⟩
    · rwa [if_neg changed] at counts
  have same : ∀ y : Spend, (if y.id = id ∧ from_ y.state then { y with state } else y).amount = y.amount := by
    intro y
    split <;> rfl
  have time : ∀ y : Spend, (if y.id = id ∧ from_ y.state then { y with state } else y).createdAt = y.createdAt := by
    intro y
    split <;> rfl
  have kept : ∀ y ∈ s.spends.rows.reverse, counted bucket y → 0 ≤ y.amount := fun y inside _ =>
    checked.nonneg y (List.mem_reverse.mp inside)
  constructor
  · intro x inside
    rw [rows] at inside
    obtain ⟨y,there,rfl⟩ := List.mem_map.mp inside
    rw [same]
    exact checked.nonneg y there
  · rw [rows,← List.map_reverse]
    apply checked.hour.map same fewer kept
    apply List.pairwise_of_forall
    intro x y _ _ reaches
    simpa only [reach,time] using reaches
  · rw [rows,← List.map_reverse]
    apply checked.day.map same fewer kept
    apply List.pairwise_of_forall
    intro x y _ _ reaches
    simpa only [reach,time] using reaches
  · intro x inside counts
    rw [rows] at inside
    obtain ⟨y,there,rfl⟩ := List.mem_map.mp inside
    rw [same]
    exact checked.trade y there (fewer y counts)

private theorem checked_reserve {s : KernelStore} {bucket : QuoteBucket} (checked : Checked caps s bucket)
    (args : ReserveArgs) (id : String) (own : args.caps = caps args.bucket) (nonneg : 0 ≤ args.amount) :
    Checked caps (s.reserve args id).2 bucket := by
  rcases reserve_cases s args id with same | ⟨spends,inserted,stored,perTrade,perHour,perDay⟩
  · rw [same]
    exact checked
  · have rows := (Table.insert?_eq_some_iff.mp inserted).2
    generalize row : (⟨id,args.tradeId,args.bucket,args.amount,.reserved,args.now⟩ : Spend) = x at rows
    have amount : x.amount = args.amount := by rw [← row]
    have time : x.createdAt = args.now := by rw [← row]
    have mine : counted bucket x → bucket = args.bucket := by
      intro counts
      rw [← row] at counts
      simp only [counted,decide_eq_true_eq] at counts
      exact counts.1.symm
    rw [own] at perTrade perHour perDay
    rw [← time,sumActive_eq] at perHour perDay
    rw [stored]
    constructor
    · intro y inside
      rw [rows] at inside
      rcases List.mem_append.mp inside with old | new
      · exact checked.nonneg y old
      · rw [List.mem_singleton.mp new,amount]
        exact nonneg
    · rw [rows,List.reverse_append]
      refine ⟨fun counts => ?_,checked.hour⟩
      rw [mine counts,amount]
      exact perHour
    · rw [rows,List.reverse_append]
      refine ⟨fun counts => ?_,checked.day⟩
      rw [mine counts,amount]
      exact perDay
    · intro y inside counts
      rw [rows] at inside
      rcases List.mem_append.mp inside with old | new
      · exact checked.trade y old counts
      · rw [List.mem_singleton.mp new] at counts ⊢
        rw [mine counts,amount]
        exact perTrade

private theorem checked_step {s : KernelStore} {bucket : QuoteBucket} (checked : Checked caps s bucket)
    {call : SpendCall} (nonneg : call.Nonneg) (keeps : call.Keeps s) : Checked caps (call.run caps s) bucket := by
  cases call with
  | reserve other amount tradeId now id => exact checked_reserve checked _ id rfl nonneg
  | release id =>
    rw [SpendCall.run,KernelStore.releaseReservation]
    apply checked_setSpend checked
    intro old held
    rw [of_decide_eq_true held]
    decide
  | consume id =>
    -- a spend that is there is not a released one, so the guard it lacks would not have mattered
    have guarded : s.consumeReservation id = s.setSpend id (fun old => old ≠ .released) .consumed := by
      unfold KernelStore.consumeReservation KernelStore.setSpend
      cases found : s.spends.find? id with
      | none => rfl
      | some x => simp [keeps x found]
    rw [SpendCall.run,guarded]
    apply checked_setSpend checked
    exact fun old held => of_decide_eq_true held

private theorem checked_run {s : KernelStore} {bucket : QuoteBucket} (checked : Checked caps s bucket)
    {calls : List SpendCall} (nonneg : ∀ call ∈ calls, call.Nonneg) (unrevived : Unrevived caps s calls) :
    Checked caps (runCalls caps s calls) bucket := by
  induction calls generalizing s with
  | nil => exact checked
  | cons call calls ih =>
    apply ih
    · exact checked_step checked (nonneg call List.mem_cons_self) unrevived.1
    · exact fun later inside => nonneg later (List.mem_cons_of_mem _ inside)
    · exact unrevived.2

private theorem Checked.window {s : KernelStore} {bucket : QuoteBucket} (checked : Checked caps s bucket) {cap width : ℤ}
    (admitted : Admitted Spend.amount cap (counted bucket) (reach width) s.spends.rows.reverse) (room : 0 ≤ cap)
    (a : ℤ) : windowTotal s bucket a (a + width) ≤ cap := by
  rw [windowTotal,← total_reverse]
  apply admitted.within room
  · exact fun y inside _ => checked.nonneg y (List.mem_reverse.mp inside)
  · apply List.pairwise_of_forall
    intro x y _ _ newer older
    simp only [decide_eq_true_eq,reach] at newer older ⊢
    omega

/-- However reservations, releases and settlements follow each other and whatever the
clock says, as long as no released spend is consumed every window stays under its cap. -/
theorem caps_hold (caps : QuoteBucket → SpendCaps) (room : ∀ bucket, 0 ≤ (caps bucket).perHour ∧ 0 ≤ (caps bucket).perDay)
    (calls : List SpendCall) (nonneg : ∀ call ∈ calls, call.Nonneg) (unrevived : Unrevived caps .empty calls)
    (bucket : QuoteBucket) : WithinCaps caps (runCalls caps .empty calls) bucket := by
  have start : Checked caps .empty bucket := by
    constructor
    · intro x inside
      cases inside
    · trivial
    · trivial
    · intro x inside
      cases inside
  have checked := checked_run start nonneg unrevived
  exact ⟨checked.window checked.hour (room bucket).1,checked.window checked.day (room bucket).2,checked.trade⟩

end Calls

namespace Sample

def caps : QuoteBucket → SpendCaps := fun _ => ⟨10,10,10⟩

/-- A reservation is released, its room is given to another, and both are settled. -/
def revived : List SpendCall :=
  [.reserve .sol 10 "t1" 0 "r1",.release "r1",.reserve .sol 10 "t2" 0 "r2",.consume "r1",.consume "r2"]

def settled : List SpendCall :=
  [.reserve .sol 10 "t1" 0 "r1",.release "r1",.reserve .sol 10 "t2" 0 "r2",.consume "r2"]

end Sample

open Sample in
theorem caps_hold_settled : WithinCaps caps (runCalls caps .empty settled) .sol := by
  apply caps_hold caps
  · simp [caps]
  · decide
  · refine ⟨trivial,trivial,trivial,?_,trivial⟩
    intro x found
    have state : (((runCalls caps .empty (settled.take 3)).spends.find? "r2").map (·.state)) = some .reserved := by decide
    have same : ((runCalls caps .empty (settled.take 3)).spends.find? "r2") = some x := found
    rw [same] at state
    have reserved : x.state = .reserved := Option.some.inj state
    rw [reserved]
    decide

open Sample in
/-- Nothing asks what state a spend is in when it is consumed. -/
theorem caps_exceeded :
    (∀ call ∈ revived, call.Nonneg) ∧ ¬WithinCaps caps (runCalls caps .empty revived) .sol := by
  constructor
  · decide
  · intro within
    have most := within.hour 0
    revert most
    decide

end RatifyOs.Kernel
