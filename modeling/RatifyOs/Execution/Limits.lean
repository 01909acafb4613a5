import RatifyOs.Data.Window
import RatifyOs.Execution.Control

/-! The rolling limits of `TradingControl` over whole runs: each trade was admitted within
them, and what can happen to the entries afterwards. -/
namespace RatifyOs.Execution
open Data Data.Window

inductive Scope where
  | asset (a : String)
  | strategy (s : String)

inductive Span where
  | hour
  | day

def Scope.counts : Scope → LedgerRow → Bool
  | asset a, r => r.asset = a
  | strategy s, r => r.strategy = s

def Span.width : Span → ℤ
  | hour => 3600
  | day => 86400

def Span.cap (limits : PolicyLimits) : Span → Scope → ℤ
  | hour, .asset _ => limits.assetHourly
  | day, .asset _ => limits.assetDaily
  | hour, .strategy _ => limits.strategyHourly
  | day, .strategy _ => limits.strategyDaily

/-- What the ledger has of the scope with a time in the span that ends at `T`. -/
def windowTotal (l : ReservationLedger) (scope : Scope) (span : Span) (T : ℤ) : ℤ :=
  total LedgerRow.amount (fun r => scope.counts r && (T - span.width < r.at_ ∧ r.at_ ≤ T : Bool)) l.rows.rows

inductive ControlCall where
  | reserve (t : TradeRequest)
  | release (id : String)
  | commit (id : String) (now : ℤ)

/-- The reading of the clock that comes with a call. -/
def ControlCall.time : ControlCall → Option ℤ
  | reserve t => some t.now
  | release _ => none
  | commit _ now => some now

/-- The ledger, and when each entry was admitted. -/
structure Admissions where
  ledger : ReservationLedger
  admitted : String → ℤ

section Runs
variable (c : TradingControl)

def ControlCall.run (s : Admissions) : ControlCall → Admissions
  | reserve t =>
    let x := c.reserve t s.ledger
    ⟨x.2,if x.1.allowed then Function.update s.admitted t.id t.now else s.admitted⟩
  | release id => { s with ledger := (s.ledger.release id).2 }
  | commit id now => { s with ledger := (s.ledger.commit id now).2 }

def start (ttl : ℤ) (quote : Option (String × ℤ)) : Admissions := ⟨⟨.empty,ttl,quote⟩,fun _ => 0⟩

def runControl (s : Admissions) (calls : List ControlCall) : Admissions := calls.foldl (ControlCall.run c) s

/-- No trade of its asset or strategy was admitted an hour or more after the reservation
that is committed. -/
def ControlCall.Timely (s : Admissions) : ControlCall → Prop
  | commit id _ => ∀ y ∈ s.ledger.rows.find? id, y.state = .reserved →
      ∀ x ∈ s.ledger.rows.rows, x.asset = y.asset ∨ x.strategy = y.strategy → s.admitted x.id < y.at_ + 3600
  | _ => True

instance (s : Admissions) : DecidablePred (ControlCall.Timely s)
  | .reserve _ => isTrue trivial
  | .release _ => isTrue trivial
  | .commit id _ => inferInstanceAs (Decidable (∀ y ∈ s.ledger.rows.find? id, y.state = .reserved →
      ∀ x ∈ s.ledger.rows.rows, x.asset = y.asset ∨ x.strategy = y.strategy → s.admitted x.id < y.at_ + 3600))

def Timely : Admissions → List ControlCall → Prop
  | _, [] => True
  | s, call :: calls => call.Timely s ∧ Timely (call.run c s) calls

private def reach (admitted : String → ℤ) (span : Span) (x y : LedgerRow) : Bool :=
  y.at_ > admitted x.id - span.width

private structure Checked (s : Admissions) (clock : ℤ) : Prop where
  nonneg : ∀ r ∈ s.ledger.rows.rows, 0 ≤ r.amount
  past : ∀ r ∈ s.ledger.rows.rows, r.at_ ≤ clock
  born : ∀ r ∈ s.ledger.rows.rows, s.admitted r.id ≤ r.at_
  reserved : ∀ r ∈ s.ledger.rows.rows, r.state = .reserved → r.at_ = s.admitted r.id
  within : ∀ (scope : Scope) (span : Span), Admitted LedgerRow.amount (span.cap c.p.limits scope) scope.counts
    (reach s.admitted span) s.ledger.rows.rows.reverse

variable {c}

theorem reasons_nil {t : TradeRequest} {l : ReservationLedger} (none_ : c.reasons t l = []) :
    0 < t.amount ∧ t.portfolioExposure + TradingControl.held l (fun _ => true) + t.amount ≤ c.p.limits.totalExposure ∧
      t.assetExposure + TradingControl.held l (·.asset = t.tokenIn) + t.amount ≤ c.p.limits.assetExposure ∧
      ∀ span : Span,
        l.usage t.now span.width (·.asset = t.tokenIn) + t.amount ≤ span.cap c.p.limits (.asset t.tokenIn) ∧
        l.usage t.now span.width (·.strategy = t.strategy) + t.amount ≤ span.cap c.p.limits (.strategy t.strategy) := by
  unfold TradingControl.reasons at none_
  rw [List.flatten_eq_nil_iff] at none_
  simp only [List.forall_mem_cons,TradingControl.bad_eq_nil,decide_eq_false_iff_not,Int.not_le,Int.not_lt,gt_iff_lt] at none_
  obtain ⟨_,_,amount,_,_,_,_,_,_,_,_,_,_,_,_,_,_,_,_,_,_,_,_,_,_,_,_,_,total_,asset,_,_,_,_,assetHour,assetDay,
    strategyHour,strategyDay,_⟩ := none_
  refine ⟨amount,total_,asset,fun span => ?_⟩
  cases span with
  | hour => exact ⟨assetHour,strategyHour⟩
  | day => exact ⟨assetDay,strategyDay⟩

theorem reserve_cases (t : TradeRequest) (l : ReservationLedger) :
    ((c.reserve t l).1.allowed = false ∧ (c.reserve t l).2 = l.expire t.now) ∨
      ∃ rows, (l.expire t.now).rows.insert?
          ⟨t.id,t.now,t.tokenIn,t.strategy,t.amount,.reserved,t.now + l.ttl,none⟩ = some rows ∧
        c.reserve t l = (⟨true,[],some t.id⟩,{ l.expire t.now with rows }) ∧ c.reasons t (l.expire t.now) = [] := by
  unfold TradingControl.reserve
  dsimp only
  split
  · exact .inl ⟨rfl,rfl⟩
  · rename_i passed
    have passed' := not_not.mp passed
    unfold ReservationLedger.reserve
    split
    · exact .inl ⟨rfl,rfl⟩
    split
    · exact .inl ⟨rfl,rfl⟩
    split
    · rename_i rows inserted
      exact .inr ⟨rows,inserted,rfl,passed'⟩
    · exact .inl ⟨rfl,rfl⟩

private theorem expire_expire (l : ReservationLedger) (now : ℤ) : (l.expire now).expire now = l.expire now := by
  simp [ReservationLedger.expire,Table.keep]

private theorem usage_eq {l : ReservationLedger} {now w : ℤ} {p : LedgerRow → Bool}
    (past : ∀ r ∈ l.rows.rows, r.at_ ≤ now) :
    (l.expire now).usage now w p =
      total LedgerRow.amount (fun r => p r && (r.at_ > now - w : Bool)) (l.expire now).rows.rows := by
  unfold ReservationLedger.usage total Table.select
  rw [expire_expire]
  congr 2
  apply List.filter_congr
  intro r inside
  have before := past r (List.mem_of_mem_filter inside)
  simp [before,Bool.and_comm]

private theorem Checked.expire {s : Admissions} {clock : ℤ} (ok : Checked c s clock) (now : ℤ) :
    Checked c { s with ledger := s.ledger.expire now } clock := by
  have inside : ∀ r ∈ (s.ledger.expire now).rows.rows, r ∈ s.ledger.rows.rows := fun r => List.mem_of_mem_filter
  refine ⟨fun r i => ok.nonneg r (inside r i),fun r i => ok.past r (inside r i),fun r i => ok.born r (inside r i),
    fun r i => ok.reserved r (inside r i),fun scope span => ?_⟩
  refine (ok.within scope span).sublist ?_ ?_
  · exact List.reverse_sublist.mpr List.filter_sublist
  · intro y member _
    exact ok.nonneg y (List.mem_reverse.mp member)

private theorem Checked.later {s : Admissions} {clock now : ℤ} (ok : Checked c s clock) (later : clock ≤ now) :
    Checked c s now :=
  { ok with past := fun r inside => (ok.past r inside).trans later }

private theorem Checked.reserve {s : Admissions} {t : TradeRequest} (ok : Checked c s t.now) :
    Checked c ((ControlCall.reserve t).run c s) t.now := by
  have purged := ok.expire t.now
  unfold ControlCall.run
  obtain ⟨refused,rest⟩ | ⟨rows,inserted,done,passed⟩ := reserve_cases (c := c) t s.ledger
  · simpa [refused,rest] using purged
  obtain ⟨absent,listed⟩ := Table.insert?_eq_some_iff.mp inserted
  obtain ⟨amount,_,_,spans⟩ := reasons_nil passed
  have other : ∀ r ∈ (s.ledger.expire t.now).rows.rows, r.id ≠ t.id := Table.find?_eq_none_iff.mp absent
  have kept : ∀ r ∈ (s.ledger.expire t.now).rows.rows, Function.update s.admitted t.id t.now r.id = s.admitted r.id :=
    fun r inside => Function.update_of_ne (other r inside) _ _
  simp only [done,if_true]
  refine ⟨?_,?_,?_,?_,fun scope span => ?_⟩
  · simp only [listed,List.forall_mem_append,List.forall_mem_singleton]
    exact ⟨purged.nonneg,amount.le⟩
  · simp only [listed,List.forall_mem_append,List.forall_mem_singleton]
    exact ⟨purged.past,le_rfl⟩
  · simp only [listed,List.forall_mem_append,List.forall_mem_singleton]
    refine ⟨fun r inside => ?_,by simp⟩
    rw [kept r inside]
    exact purged.born r inside
  · simp only [listed,List.forall_mem_append,List.forall_mem_singleton]
    refine ⟨fun r inside state => ?_,by simp⟩
    rw [kept r inside]
    exact purged.reserved r inside state
  · simp only [listed,List.reverse_append,List.reverse_singleton,List.singleton_append]
    refine ⟨fun counts => ?_,?_⟩
    · -- the check at the request is the one of the new entry's scope
      have fits : (s.ledger.expire t.now).usage t.now span.width scope.counts + t.amount ≤ span.cap c.p.limits scope := by
        cases scope with
        | asset a =>
          obtain rfl : t.tokenIn = a := by simpa [Scope.counts] using counts
          exact (spans span).1
        | strategy st =>
          obtain rfl : t.strategy = st := by simpa [Scope.counts] using counts
          exact (spans span).2
      rw [usage_eq ok.past] at fits
      rw [total_reverse]
      simpa [reach] using fits
    · have same : Admitted LedgerRow.amount (span.cap c.p.limits scope) scope.counts
          (reach (Function.update s.admitted t.id t.now) span) _ := (purged.within scope span).map (f := id)
        (fun _ => rfl) (fun _ => id) (fun y inside _ => purged.nonneg y (List.mem_reverse.mp inside)) ?_
      · simpa using same
      · apply List.pairwise_of_forall_mem_list
        intro x inside y _ _ _ holds
        rw [List.mem_reverse] at inside
        simpa [reach,kept x inside] using holds

private theorem Checked.release {s : Admissions} {clock : ℤ} (ok : Checked c s clock) (id : String) :
    Checked c ((ControlCall.release id).run c s) clock := by
  have inside : ∀ r ∈ (s.ledger.release id).2.rows.rows, r ∈ s.ledger.rows.rows := fun r => List.mem_of_mem_filter
  refine ⟨fun r i => ok.nonneg r (inside r i),fun r i => ok.past r (inside r i),fun r i => ok.born r (inside r i),
    fun r i => ok.reserved r (inside r i),fun scope span => ?_⟩
  refine (ok.within scope span).sublist ?_ ?_
  · exact List.reverse_sublist.mpr List.filter_sublist
  · intro y member _
    exact ok.nonneg y (List.mem_reverse.mp member)

private theorem Checked.commit {s : Admissions} {id : String} {now : ℤ} (ok : Checked c s now)
    (timely : (ControlCall.commit id now).Timely s) : Checked c ((ControlCall.commit id now).run c s) now := by
  change Checked c { s with ledger := (s.ledger.commit id now).2 } now
  obtain same | ⟨y,found,held,committed⟩ := s.ledger.commit_cases id now
  · rw [same]
    exact ok
  rw [committed]
  have there := Table.mem_of_find? found
  let f : LedgerRow → LedgerRow := fun old =>
    if old.id = y.id then { old with state := .committed, at_ := now, expiresAt := now } else old
  have rows : (s.ledger.rows.put { y with state := .committed, at_ := now, expiresAt := now }).rows =
      s.ledger.rows.rows.map f := by
    apply List.map_congr_left
    intro old inside
    by_cases same : old.id = y.id
    · obtain rfl := List.inj_on_of_nodup_map s.ledger.rows.distinct inside there same
      simp [f]
    · simp [f,same]
  have kept : ∀ old, (f old).id = old.id ∧ (f old).amount = old.amount ∧ ∀ scope : Scope, scope.counts (f old) = scope.counts old := by
    intro old
    unfold f
    split <;> exact ⟨rfl,rfl,fun scope => by cases scope <;> rfl⟩
  refine ⟨?_,?_,?_,?_,fun scope span => ?_⟩
  · intro r inside
    obtain rfl | ⟨was,_⟩ := Table.mem_put inside
    · exact ok.nonneg y there
    · exact ok.nonneg r was
  · intro r inside
    obtain rfl | ⟨was,_⟩ := Table.mem_put inside
    · exact le_rfl
    · exact ok.past r was
  · intro r inside
    obtain rfl | ⟨was,_⟩ := Table.mem_put inside
    · exact (ok.born y there).trans (ok.past y there)
    · exact ok.born r was
  · intro r inside state
    obtain rfl | ⟨was,_⟩ := Table.mem_put inside
    · cases state
    · exact ok.reserved r was state
  · rw [rows,← List.map_reverse]
    refine (ok.within scope span).map (fun old => (kept old).2.1) (fun old counts => (kept old).2.2 scope ▸ counts)
      (fun old inside _ => ok.nonneg old (List.mem_reverse.mp inside)) ?_
    apply List.pairwise_of_forall_mem_list
    intro x inside old inside' xCounts oldCounts reaches
    rw [List.mem_reverse] at inside inside'
    rw [(kept x).2.2] at xCounts
    rw [(kept old).2.2] at oldCounts
    simp only [reach,(kept x).1,decide_eq_true_eq] at reaches ⊢
    by_cases same : old.id = y.id
    · -- the committed entry was in reach while it was reserved
      obtain rfl := List.inj_on_of_nodup_map s.ledger.rows.distinct inside' there same
      have wide : 3600 ≤ span.width := by cases span <;> decide
      have early := timely old found held x inside ?_
      · omega
      · cases scope with
        | asset a => simp_all [Scope.counts]
        | strategy st => simp_all [Scope.counts]
    · simpa [f,same] using reaches

/-- What is checked at admission is checked for every span of time, as long as no entry
is moved out of the reach of a later one. -/
private theorem Checked.windowTotal_le {s : Admissions} {clock : ℤ} (ok : Checked c s clock) (scope : Scope) (span : Span)
    (T : ℤ) : windowTotal s.ledger scope span T ≤ span.cap c.p.limits scope := by
  have room : 0 ≤ span.cap c.p.limits scope := by
    have positive := PolicyDocument.numbers_nonneg c.valid
    cases span <;> cases scope <;> exact positive _ (by simp [Span.cap,PolicyDocument.numbers])
  unfold windowTotal
  rw [← total_reverse]
  refine (ok.within scope span).within room (fun y inside _ => ok.nonneg y (List.mem_reverse.mp inside)) ?_
  apply List.pairwise_of_forall_mem_list
  intro x inside y _ _ _ xIn yIn
  have born := ok.born x (List.mem_reverse.mp inside)
  simp only [decide_eq_true_eq] at xIn yIn
  simp only [reach,decide_eq_true_eq]
  omega

private theorem Checked.step {s : Admissions} {clock : ℤ} (ok : Checked c s clock) (now : ℤ) {call : ControlCall}
    (later : ∀ now' ∈ call.time, now = now') (up : clock ≤ now) (timely : call.Timely s) :
    Checked c (call.run c s) now := by
  have ok' := ok.later up
  cases call with
  | reserve t =>
    obtain rfl := later t.now rfl
    exact ok'.reserve
  | release id => exact ok'.release id
  | commit id at_ =>
    obtain rfl := later at_ rfl
    exact ok'.commit timely

variable (c)

theorem runControl_checked (calls : List ControlCall) {s : Admissions} {clock : ℤ} (ok : Checked c s clock)
    (later : ∀ now ∈ calls.filterMap ControlCall.time, clock ≤ now)
    (ordered : (calls.filterMap ControlCall.time).Pairwise (· ≤ ·)) (timely : Timely c s calls) :
    ∃ clock, Checked c (runControl c s calls) clock := by
  induction calls generalizing s clock with
  | nil => exact ⟨clock,ok⟩
  | cons call calls ih =>
    obtain ⟨here,rest⟩ := timely
    cases time : call.time with
    | none =>
      rw [List.filterMap_cons_none time] at later ordered
      exact ih (ok.step clock (by simp [time]) le_rfl here) later ordered rest
    | some now =>
      rw [List.filterMap_cons_some time] at later ordered
      obtain ⟨first,ordered⟩ := List.pairwise_cons.mp ordered
      exact ih (ok.step now (by simp [time]) (later now List.mem_cons_self) here) first ordered rest

theorem limits_hold (ttl : ℤ) (quote : Option (String × ℤ)) (calls : List ControlCall)
    (ordered : (calls.filterMap ControlCall.time).Pairwise (· ≤ ·)) (timely : Timely c (start ttl quote) calls) :
    let l := (runControl c (start ttl quote) calls).ledger
    (∀ scope span T, windowTotal l scope span T ≤ span.cap c.p.limits scope) ∧
    ∀ t, (c.reserve t l).1.allowed →
      let after := (c.reserve t l).2
      t.portfolioExposure + TradingControl.held after (fun _ => true) ≤ c.p.limits.totalExposure ∧
      t.assetExposure + TradingControl.held after (·.asset = t.tokenIn) ≤ c.p.limits.assetExposure := by
  intro l
  have empty (clock : ℤ) : Checked c (start ttl quote) clock :=
    ⟨by simp [start],by simp [start],by simp [start],by simp [start],fun _ _ => trivial⟩
  refine ⟨?_,?_⟩
  · obtain ⟨first,before⟩ : ∃ first, ∀ now ∈ calls.filterMap ControlCall.time, first ≤ now := by
      cases times : calls.filterMap ControlCall.time with
      | nil => exact ⟨0,by simp⟩
      | cons now rest =>
        rw [times] at ordered
        exact ⟨now,List.forall_mem_cons.mpr ⟨le_rfl,(List.pairwise_cons.mp ordered).1⟩⟩
    obtain ⟨clock,ok⟩ := runControl_checked c calls (empty first) before ordered timely
    exact ok.windowTotal_le
  · intro t allowed
    obtain ⟨refused,_⟩ | ⟨rows,inserted,done,passed⟩ := reserve_cases (c := c) t l
    · rw [refused] at allowed
      cases allowed
    obtain ⟨_,listed⟩ := Table.insert?_eq_some_iff.mp inserted
    obtain ⟨_,all,asset,_⟩ := reasons_nil passed
    simp only [done,TradingControl.held,Table.select,listed,List.filter_append,List.map_append,List.sum_append,
      List.filter_cons,List.filter_nil,decide_true,if_true,List.map_cons,List.map_nil,List.sum_cons,List.sum_nil]
      at all asset ⊢
    omega

end Runs

section Commits

private def policy : PolicyDocument where
  version := "1"
  effectiveAt := 0
  expiresAt := 1000000
  allow := ⟨[1],["account"],["token","usd"],["router"],["target"],["selector"],["recipient"]⟩
  limits := ⟨100,100,1000,100,1000,1000,1000,10000,0,0⟩
  market := ⟨10,0,0,0,0,0,0,false,10,false⟩
  approvalClass := "exact"
  deadManAfter := 10
  globalKill := false
  strategyKills := []

private def control : TradingControl := ⟨policy,⟨"hash","signature",none⟩,by decide +kernel,fun _ _ => true,fun _ => "hash"⟩

private def trade (id : String) (now : ℤ) : TradeRequest where
  id := id
  now := now
  chain := 1
  account := "account"
  tokenIn := "token"
  tokenOut := "usd"
  router := "router"
  target := "target"
  selector := "selector"
  recipient := "recipient"
  strategy := "strategy"
  amount := 60
  approvalAmount := 60
  quoteAt := now
  slippageBps := 0
  impactBps := 0
  gas := 0
  fees := 0
  liquidity := 0
  taxBps := 0
  isProxy := false
  oracleAt := now
  sequencerUp := true
  portfolioExposure := 0
  assetExposure := 0
  portfolioValue := 1000
  peakValue := 1000
  realizedLoss := 0
  unrealizedLoss := 0
  lastHeartbeat := now

/-- The second trade is admitted when the first has left its hour but not the ledger. -/
private def late : List ControlCall := [.reserve (trade "a" 0),.reserve (trade "b" 3600),.commit "a" 3601]

theorem hourly_exceeded :
    let l := (runControl control (start 7200 none) late).ledger
    (late.filterMap ControlCall.time).Pairwise (· ≤ ·) ∧
      windowTotal l (.asset "token") .hour 3601 = 120 ∧ Span.cap policy.limits .hour (.asset "token") = 100 := by
  refine ⟨by decide,?_,rfl⟩
  decide +kernel

private def prompt : List ControlCall := [.reserve (trade "a" 0),.reserve (trade "b" 3600),.commit "b" 3601]

theorem limits_hold_prompt :
    windowTotal (runControl control (start 7200 none) prompt).ledger (.asset "token") .hour 3601 ≤ 100 := by
  have timely : Timely control (start 7200 none) prompt := ⟨trivial,trivial,by decide +kernel,trivial⟩
  exact (limits_hold control 7200 none prompt (by decide) timely).1 (.asset "token") .hour 3601

end Commits

end RatifyOs.Execution
