import RatifyOs.Pools.Rebalance

/-! What the brakes on rebalancing come to over a run. -/
namespace RatifyOs.Pools
open Data

/-- Far enough apart, and few enough in any day. -/
structure Braked (policy : RebalancePolicy) (times : List ℚ) : Prop where
  apart : times.Pairwise fun earlier later => policy.minIntervalMs ≤ later - earlier
  capped : ∀ start, 0 < times.countP (fun time => start ≤ time ∧ time ≤ start + DAY_MS) →
    (times.countP (fun time => start ≤ time ∧ time ≤ start + DAY_MS) : ℚ) ≤ policy.maxPerDay

/-- One more is allowed at this time and from then on. -/
structure Clear (policy : RebalancePolicy) (times : List ℚ) (now : ℚ) : Prop where
  apart : ∀ time ∈ times, policy.minIntervalMs ≤ now - time
  room : (times.countP (now - DAY_MS ≤ ·) + 1 : ℚ) ≤ policy.maxPerDay

theorem Clear.later {policy : RebalancePolicy} {times : List ℚ} {now later : ℚ} (clear : Clear policy times now)
    (le : now ≤ later) : Clear policy times later := by
  refine ⟨fun time inside => ?_,?_⟩
  · have := clear.apart time inside
    linarith
  · have fewer : times.countP (later - DAY_MS ≤ ·) ≤ times.countP (now - DAY_MS ≤ ·) := by
      refine List.countP_mono_left fun time _ within => ?_
      simp only [decide_eq_true_eq] at within ⊢
      linarith
    have fewer' : (times.countP (later - DAY_MS ≤ ·) : ℚ) ≤ times.countP (now - DAY_MS ≤ ·) := by exact_mod_cast fewer
    linarith [clear.room]

theorem Braked.append {policy : RebalancePolicy} {times : List ℚ} {now : ℚ} (braked : Braked policy times)
    (clear : Clear policy times now) : Braked policy (times ++ [now]) := by
  refine ⟨?_,fun start some_ => ?_⟩
  · rw [List.pairwise_append]
    refine ⟨braked.apart,List.pairwise_singleton _ _,fun earlier inside later last => ?_⟩
    rw [List.mem_singleton.mp last]
    exact clear.apart earlier inside
  · rw [List.countP_append] at some_ ⊢
    by_cases within : start ≤ now ∧ now ≤ start + DAY_MS
    · -- The window ends no later than this rebalance's own day begins to count.
      have fewer : times.countP (fun time => start ≤ time ∧ time ≤ start + DAY_MS) ≤ times.countP (now - DAY_MS ≤ ·) := by
        refine List.countP_mono_left fun time _ inside => ?_
        simp only [decide_eq_true_eq] at inside ⊢
        linarith [within.2,inside.1]
      have fewer' : (times.countP (fun time => start ≤ time ∧ time ≤ start + DAY_MS) : ℚ) ≤
          times.countP (now - DAY_MS ≤ ·) := by exact_mod_cast fewer
      simp only [List.countP_singleton,within,and_self,decide_true,if_true]
      push_cast
      linarith [clear.room]
    · simp only [List.countP_singleton,within,decide_false,Bool.false_eq_true,if_false,add_zero] at some_ ⊢
      exact braked.capped start some_

/-! The ledger. -/

namespace RebalanceLedger
variable {ledger : RebalanceLedger} {address other : String} {now time : ℚ}

/-- Pruning forgets nothing that is inside the window. -/
theorem countP_prune (ledger : RebalanceLedger) {list : List ℚ} (inside : now - ledger.windowMs ≤ time) :
    (ledger.prune list now).countP (time ≤ ·) = list.countP (time ≤ ·) := by
  unfold prune
  induction list with
  | nil => rfl
  | cons first rest ih =>
    rw [List.dropWhile_cons]
    split
    · rename_i old
      have before : ¬time ≤ first := by
        simp only [decide_eq_true_eq] at old
        linarith
      rw [ih,List.countP_cons_of_neg (by simpa using before)]
    · rfl

/-- How many entries of an address are not before a time. -/
def since (ledger : RebalanceLedger) (address : String) (time : ℚ) : ℕ := (ledger.byPosition address).countP (time ≤ ·)

theorem since_record (inside : now - ledger.windowMs ≤ time) :
    (ledger.record address now).since other time =
      ledger.since other time + if other = address ∧ time ≤ now then 1 else 0 := by
  unfold since record set
  by_cases same : other = address
  · subst same
    simp only [if_true,countP_prune ledger inside,List.countP_append,List.countP_singleton,decide_eq_true_eq,true_and]
  · simp [same]

theorem since_history (inside : now - ledger.windowMs ≤ time) :
    (ledger.history address now).2.since other time = ledger.since other time := by
  unfold since history set
  by_cases same : other = address
  · subst same
    simp [countP_prune ledger inside]
  · simp [same]

/-- What is in the ledger since a time inside the window is in the history. -/
theorem since_le_history (inside : now - ledger.windowMs ≤ time) :
    ledger.since address time ≤ (ledger.history address now).1.countInWindow := by
  unfold since history
  rw [← countP_prune ledger inside]
  exact List.countP_le_length

theorem lastAt_of_since (inside : now - ledger.windowMs ≤ time) (some_ : 0 < ledger.since address time) :
    ∃ lastAt ∈ (ledger.history address now).1.lastAt, time ≤ lastAt := by
  unfold since at some_
  rw [← countP_prune ledger inside,List.countP_pos_iff] at some_
  obtain ⟨entry,listed,late⟩ := some_
  simp only [decide_eq_true_eq] at late
  unfold history
  dsimp only
  cases found : (ledger.prune (ledger.byPosition address) now).max? with
  | none => simp [List.max?_eq_none_iff.mp found] at listed
  | some lastAt => exact ⟨lastAt,rfl,late.trans ((List.max?_eq_some_iff.mp found).2 entry listed)⟩

end RebalanceLedger

/-! The run. -/

section Condition
variable (policy : RebalancePolicy) (s : Desk)

/-- What a decision has to go by: the pool has no other exit under way, and each rebalance of
the pool that a brake is about was of this very position and is inside the ledger's window. -/
def Informed (cfg : RebalanceConfig) : Prop :=
  policy.maxPerDay.den = 1 ∧ (∀ c ∈ s.calls.rows, c.pool = cfg.poolAddress → c.answered) ∧
    ∀ e ∈ s.executed, e.pool = cfg.poolAddress →
      s.now - e.time ≤ DAY_MS ∨ s.now - e.time < policy.minIntervalMs →
        e.position = cfg.positionAddress ∧ s.now - e.time ≤ s.ledger.windowMs

instance (cfg : RebalanceConfig) : Decidable (Informed policy s cfg) := inferInstanceAs (Decidable (_ ∧ _ ∧ _))

/-- The decisions are informed, and the gateway knows what lands: nothing that it has given up,
and all that it has handed over. -/
def orderly : Event → Prop
  | .decides _ cfg _ => Informed policy s cfg
  | .lands call => ∀ c ∈ s.calls.rows, c.call = call → ¬c.answered
  | .reports call failed => ∀ c ∈ s.calls.rows, c.call = call → c.landed → ¬failed
  | _ => True

instance : (event : Event) → Decidable (orderly policy s event)
  | .tick _ => inferInstanceAs (Decidable True)
  | .opens _ _ => inferInstanceAs (Decidable True)
  | .decides _ cfg _ => inferInstanceAs (Decidable (Informed policy s cfg))
  | .lands call => inferInstanceAs (Decidable (∀ c ∈ s.calls.rows, c.call = call → ¬c.answered))
  | .reports call failed => inferInstanceAs (Decidable (∀ c ∈ s.calls.rows, c.call = call → c.landed → ¬failed))

end Condition

/-- How many rebalances of a pool's position at an address are not before a time. -/
def Desk.rebalanced (s : Desk) (pool position : String) (time : ℚ) : ℕ :=
  s.executed.countP fun e => e.pool = pool ∧ e.position = position ∧ time ≤ e.time

/-- An exit has landed there and is not in the ledger yet. -/
def Desk.Unrecorded (s : Desk) (pool position : String) : Prop :=
  ∃ c ∈ s.calls.rows, c.pool = pool ∧ c.position = position ∧ c.landed ∧ c.answered = false

structure Kept (policy : RebalancePolicy) (s : Desk) : Prop where
  braked : ∀ pool, Braked policy (s.timesOf pool)
  past : ∀ e ∈ s.executed, e.time ≤ s.now
  alone : ∀ c ∈ s.calls.rows, ∀ c' ∈ s.calls.rows, c.answered = false → c'.answered = false → c.pool = c'.pool → c = c'
  cleared : ∀ c ∈ s.calls.rows, c.answered = false → c.landed = false → Clear policy (s.timesOf c.pool) s.now
  recorded : ∀ pool position time, s.now - s.ledger.windowMs ≤ time → ¬s.Unrecorded pool position →
    s.rebalanced pool position time ≤ s.ledger.since position time
  pending : ∀ pool position time, s.now - s.ledger.windowMs ≤ time →
    s.rebalanced pool position time ≤ s.ledger.since position time + 1

section Steps
variable {policy : RebalancePolicy} {ownerWallet : String} {s : Desk}

theorem Kept.tick (kept : Kept policy s) (time : ℚ) : Kept policy { s with now := max s.now time } := by
  have later : s.now ≤ max s.now time := le_max_left _ _
  constructor
  case braked => exact kept.braked
  case past => exact fun e inside => (kept.past e inside).trans later
  case alone => exact kept.alone
  case cleared => exact fun c inside unanswered ahead => (kept.cleared c inside unanswered ahead).later later
  case recorded =>
    intro pool position t inside clean
    exact kept.recorded pool position t (by dsimp only at inside; linarith) clean
  case pending =>
    intro pool position t inside
    exact kept.pending pool position t (by dsimp only at inside; linarith)

/-- A look into the ledger changes nothing that the brakes go by. -/
theorem Kept.ledger (kept : Kept policy s) {ledger : RebalanceLedger} (window : ledger.windowMs = s.ledger.windowMs)
    (since : ∀ position time, s.now - s.ledger.windowMs ≤ time → ledger.since position time = s.ledger.since position time) :
    Kept policy { s with ledger } := by
  refine ⟨kept.braked,kept.past,kept.alone,kept.cleared,?_,?_⟩
  · intro pool position time inside clean
    dsimp only at inside ⊢
    rw [window] at inside
    rw [since position time inside]
    exact kept.recorded pool position time inside clean
  · intro pool position time inside
    dsimp only at inside ⊢
    rw [window] at inside
    rw [since position time inside]
    exact kept.pending pool position time inside

/-- What `decide_` says, and what it does to the ledger. -/
theorem decide_cases (policy : RebalancePolicy) (ownerWallet : String) (ledger : RebalanceLedger) (now : ℚ)
    (cfg : RebalanceConfig) (answers : Answers) :
    decide_ policy ownerWallet ledger now cfg answers = (none,ledger) ∨
    ∃ subject, decide_ policy ownerWallet ledger now cfg answers =
      (decideRebalance policy subject (ledger.history cfg.positionAddress now).1 now,
        (ledger.history cfg.positionAddress now).2) := by
  unfold decide_
  split
  · exact .inl rfl
  · exact .inr ⟨_,rfl⟩

theorem Desk.mem_timesOf {pool : String} {time : ℚ} (inside : time ∈ s.timesOf pool) :
    ∃ e ∈ s.executed, e.pool = pool ∧ e.time = time := by
  obtain ⟨e,listed,same⟩ := List.mem_map.mp inside
  obtain ⟨here,pool_eq⟩ := List.mem_filter.mp listed
  exact ⟨e,here,by simpa using pool_eq,same⟩

/-- An informed decision to move leaves both brakes room for one more. -/
theorem Kept.clear (kept : Kept policy s) {cfg : RebalanceConfig} (informed : Informed policy s cfg)
    {subject : RebalanceSubject} {d : RebalanceDecision}
    (decided : decideRebalance policy subject (s.ledger.history cfg.positionAddress s.now).1 s.now = some d)
    (moves : d.action = .rebalance) : Clear policy (s.timesOf cfg.poolAddress) s.now := by
  obtain ⟨whole,answered,seen⟩ := informed
  obtain ⟨interval,cap⟩ := decideRebalance_rebalance decided moves
  have clean (position : String) : ¬s.Unrecorded cfg.poolAddress position := by
    rintro ⟨c,inside,pool,-,-,unanswered⟩
    have := answered c inside pool
    rw [unanswered] at this
    cases this
  refine ⟨fun time inside => ?_,?_⟩
  · -- A rebalance that is too recent would be in the history, and its last entry no older.
    obtain ⟨e,listed,pool,rfl⟩ := Desk.mem_timesOf inside
    by_contra early
    obtain ⟨position,within⟩ := seen e listed pool (.inr (not_le.mp early))
    have behind : s.now - s.ledger.windowMs ≤ e.time := by linarith
    have counted : 0 < s.rebalanced cfg.poolAddress cfg.positionAddress e.time :=
      List.countP_pos_iff.mpr ⟨e,listed,by simp [pool,position]⟩
    have entries := counted.trans_le (kept.recorded _ _ e.time behind (clean _))
    obtain ⟨lastAt,found,late⟩ := RebalanceLedger.lastAt_of_since behind entries
    have := interval lastAt found
    linarith [not_le.mp early]
  · have behind : s.now - s.ledger.windowMs ≤ s.now - s.ledger.windowMs := le_refl _
    have fewer : (s.timesOf cfg.poolAddress).countP (s.now - DAY_MS ≤ ·) ≤
        s.rebalanced cfg.poolAddress cfg.positionAddress (s.now - s.ledger.windowMs) := by
      rw [Desk.timesOf,List.countP_map,List.countP_filter]
      refine List.countP_mono_left fun e listed counted => ?_
      simp only [Function.comp,Bool.and_eq_true,decide_eq_true_eq] at counted ⊢
      obtain ⟨recent,pool⟩ := counted
      obtain ⟨position,within⟩ := seen e listed pool (.inl (by linarith))
      exact ⟨pool,position,by linarith⟩
    have counted := (fewer.trans (kept.recorded _ _ _ behind (clean _))).trans (RebalanceLedger.since_le_history behind)
    have below : ((s.timesOf cfg.poolAddress).countP (s.now - DAY_MS ≤ ·) : ℚ) < policy.maxPerDay :=
      lt_of_le_of_lt (by exact_mod_cast counted) cap
    rw [← Rat.coe_int_num_of_den_eq_one whole] at below ⊢
    exact_mod_cast below

theorem Kept.decides (kept : Kept policy s) {call : ℕ} {cfg : RebalanceConfig} (answers : Answers)
    (informed : Informed policy s cfg) : Kept policy (s.step policy ownerWallet (.decides call cfg answers)) := by
  simp only [Desk.step]
  obtain thrown | ⟨subject,decided⟩ := decide_cases policy ownerWallet s.ledger s.now cfg answers
  · simpa [thrown] using kept
  rw [decided]
  have looked : Kept policy { s with ledger := (s.ledger.history cfg.positionAddress s.now).2 } :=
    kept.ledger rfl fun position time inside => RebalanceLedger.since_history inside
  split_ifs with moves
  swap
  · exact looked
  obtain ⟨⟨d,found,moves⟩,-⟩ := moves
  have clear := kept.clear informed found moves
  cases inserted : s.calls.insert? { call, pool := cfg.poolAddress, position := cfg.positionAddress } with
  | none => simpa [inserted] using looked
  | some calls =>
    obtain ⟨-,rows⟩ := Table.insert?_eq_some_iff.mp inserted
    have listed {c} : c ∈ calls.rows ↔ c ∈ s.calls.rows ∨
        c = { call, pool := cfg.poolAddress, position := cfg.positionAddress } := by simp [rows]
    have unrecorded (pool position : String) : (∃ c ∈ calls.rows, c.pool = pool ∧ c.position = position ∧ c.landed ∧
        c.answered = false) ↔ s.Unrecorded pool position := by
      simp [Desk.Unrecorded,rows,or_and_right,exists_or]
    refine ⟨kept.braked,kept.past,?_,?_,?_,?_⟩
    · intro c inside c' inside' unanswered unanswered' same
      rcases listed.mp inside with old | rfl <;> rcases listed.mp inside' with old' | rfl
      · exact kept.alone c old c' old' unanswered unanswered' same
      · exact absurd (informed.2.1 c old same) (by simp [unanswered])
      · exact absurd (informed.2.1 c' old' same.symm) (by simp [unanswered'])
      · rfl
    · intro c inside unanswered ahead
      rcases listed.mp inside with old | rfl
      · exact kept.cleared c old unanswered ahead
      · exact clear
    · intro pool position time inside clean
      exact looked.recorded pool position time inside fun there => clean ((unrecorded pool position).mpr there)
    · exact looked.pending

theorem Desk.timesOf_append {t : Desk} {e : Executed} (appended : t.executed = s.executed ++ [e]) (pool : String) :
    t.timesOf pool = s.timesOf pool ++ if e.pool = pool then [e.time] else [] := by
  unfold timesOf
  rw [appended,List.filter_append,List.map_append]
  by_cases here : e.pool = pool <;> simp [here]

theorem Desk.rebalanced_append {t : Desk} {e : Executed} (appended : t.executed = s.executed ++ [e])
    (pool position : String) (time : ℚ) : t.rebalanced pool position time =
      s.rebalanced pool position time + if e.pool = pool ∧ e.position = position ∧ time ≤ e.time then 1 else 0 := by
  unfold rebalanced
  rw [appended,List.countP_append,List.countP_singleton]
  simp only [decide_eq_true_eq]

theorem Kept.landed (kept : Kept policy s) {c : Exiting} (inside : c ∈ s.calls.rows) (unanswered : c.answered = false)
    (ahead : c.landed = false) {t : Desk} (now : t.now = s.now) (ledger : t.ledger = s.ledger)
    (calls : t.calls = s.calls.put { c with landed := true })
    (executed : t.executed = s.executed ++ [⟨c.pool,c.position,s.now⟩]) : Kept policy t := by
  have clear := kept.cleared c inside unanswered ahead
  have listed {c'} : c' ∈ t.calls.rows ↔ c' = { c with landed := true } ∨ c' ∈ s.calls.rows ∧ c'.call ≠ c.call := by
    rw [calls]
    exact Table.mem_put_iff (r := { c with landed := true }) (show s.calls.find? c.call = some c from Table.find?_of_mem inside)
  have others {c'} (there : c' ∈ s.calls.rows) (apart : c'.call ≠ c.call) (open_ : c'.answered = false) : c'.pool ≠ c.pool :=
    fun pool => apart (kept.alone c' there c inside open_ unanswered pool ▸ rfl)
  have clean (position : String) : ¬s.Unrecorded c.pool position := by
    rintro ⟨c',there,pool,-,landed,open_⟩
    rw [kept.alone c' there c inside open_ unanswered pool,ahead] at landed
    cases landed
  have times := Desk.timesOf_append executed
  have count := Desk.rebalanced_append executed
  constructor
  case braked =>
    intro pool
    rw [times]
    split_ifs with here
    · exact here ▸ (kept.braked c.pool).append clear
    · simpa using kept.braked pool
  case past =>
    intro e there
    rw [executed,List.mem_append,List.mem_singleton] at there
    rw [now]
    rcases there with old | rfl
    · exact kept.past e old
    · exact le_refl _
  case alone =>
    intro c₁ there₁ c₂ there₂ open₁ open₂ pool
    rcases listed.mp there₁ with rfl | ⟨old₁,apart₁⟩ <;> rcases listed.mp there₂ with rfl | ⟨old₂,apart₂⟩
    · rfl
    · exact absurd pool.symm (others old₂ apart₂ open₂)
    · exact absurd pool (others old₁ apart₁ open₁)
    · exact kept.alone c₁ old₁ c₂ old₂ open₁ open₂ pool
  case cleared =>
    intro c' there open_ waiting
    rcases listed.mp there with rfl | ⟨old,apart⟩
    · cases waiting
    · rw [times,if_neg (others old apart open_).symm,List.append_nil,now]
      exact kept.cleared c' old open_ waiting
  case recorded =>
    intro pool position time behind unmarked
    rw [now,ledger] at behind
    have before : ¬(c.pool = pool ∧ c.position = position) := by
      rintro ⟨rfl,rfl⟩
      exact unmarked ⟨{ c with landed := true },listed.mpr (.inl rfl),rfl,rfl,rfl,unanswered⟩
    have unmarked' : ¬s.Unrecorded pool position := by
      rintro ⟨c',there,pool_eq,position_eq,landed,open_⟩
      by_cases apart : c'.call = c.call
      · have same : c' = c := List.inj_on_of_nodup_map s.calls.distinct there inside apart
        exact before (same ▸ ⟨pool_eq,position_eq⟩)
      · exact unmarked ⟨c',listed.mpr (.inr ⟨there,apart⟩),pool_eq,position_eq,landed,open_⟩
    rw [count,ledger,if_neg fun ⟨pool_eq,position_eq,_⟩ => before ⟨pool_eq,position_eq⟩]
    exact kept.recorded pool position time behind unmarked'
  case pending =>
    intro pool position time behind
    rw [now,ledger] at behind
    rw [count,ledger]
    split_ifs with here
    · obtain ⟨rfl,rfl,-⟩ := here
      exact Nat.succ_le_succ (kept.recorded c.pool c.position time behind (clean _))
    · exact kept.pending pool position time behind

theorem Kept.lands (kept : Kept policy s) {call : ℕ} (known : ∀ c ∈ s.calls.rows, c.call = call → ¬c.answered) :
    Kept policy (s.step policy ownerWallet (.lands call)) := by
  simp only [Desk.step]
  cases found : s.calls.find? call with
  | none => exact kept
  | some c =>
    dsimp only
    obtain ⟨inside,same⟩ := Table.find?_eq_some_iff.mp found
    split_ifs with ready
    · exact kept.landed inside (by simpa using known c inside same) ready.1 rfl rfl rfl rfl
    · exact kept

/-- An answer is recorded unless it is a failure, and a failure has not landed. -/
theorem Kept.answered (kept : Kept policy s) {c : Exiting} (inside : c ∈ s.calls.rows) (unanswered : c.answered = false)
    {failed : Bool} (sound : c.landed → ¬failed) {t : Desk} (now : t.now = s.now)
    (ledger : t.ledger = if failed then s.ledger else s.ledger.record c.position s.now)
    (calls : t.calls = s.calls.put { c with answered := true }) (executed : t.executed = s.executed) : Kept policy t := by
  have listed {c'} : c' ∈ t.calls.rows ↔ c' = { c with answered := true } ∨ c' ∈ s.calls.rows ∧ c'.call ≠ c.call := by
    rw [calls]
    exact Table.mem_put_iff (r := { c with answered := true }) (show s.calls.find? c.call = some c from Table.find?_of_mem inside)
  have old {c'} (there : c' ∈ t.calls.rows) (open_ : c'.answered = false) : c' ∈ s.calls.rows := by
    rcases listed.mp there with rfl | ⟨there,-⟩
    · cases open_
    · exact there
  have times (pool : String) : t.timesOf pool = s.timesOf pool := by rw [Desk.timesOf,executed,Desk.timesOf]
  have count (pool position : String) (time : ℚ) : t.rebalanced pool position time = s.rebalanced pool position time := by
    rw [Desk.rebalanced,executed,Desk.rebalanced]
  have window : t.ledger.windowMs = s.ledger.windowMs := by
    rw [ledger]
    split_ifs <;> rfl
  have grown {position : String} {time : ℚ} (behind : s.now - s.ledger.windowMs ≤ time) :
      s.ledger.since position time ≤ t.ledger.since position time := by
    rw [ledger]
    split_ifs
    · exact le_refl _
    · rw [RebalanceLedger.since_record behind]
      exact Nat.le_add_right _ _
  constructor
  case braked => exact fun pool => times pool ▸ kept.braked pool
  case past => exact fun e there => now ▸ kept.past e (executed ▸ there)
  case alone => exact fun c₁ there₁ c₂ there₂ open₁ open₂ => kept.alone c₁ (old there₁ open₁) c₂ (old there₂ open₂) open₁ open₂
  case cleared =>
    intro c' there open_ ahead
    rw [times,now]
    exact kept.cleared c' (old there open_) open_ ahead
  case recorded =>
    intro pool position time behind clean
    rw [now,window] at behind
    rw [count]
    by_cases marked : s.Unrecorded pool position
    · -- Only this call can have been unrecorded there, and now it is in the ledger.
      obtain ⟨c',there,rfl,rfl,landed,open_⟩ := marked
      have same : c' = c := by
        by_contra other
        have apart : c'.call ≠ c.call := fun same => other (List.inj_on_of_nodup_map s.calls.distinct there inside same)
        exact clean ⟨c',listed.mpr (.inr ⟨there,apart⟩),rfl,rfl,landed,open_⟩
      subst same
      have entered := kept.pending c'.pool c'.position time behind
      rw [ledger,if_neg (sound landed),RebalanceLedger.since_record behind]
      by_cases late : time ≤ s.now
      · simpa [late] using entered
      · have none_ : s.rebalanced c'.pool c'.position time = 0 := by
          refine List.countP_eq_zero.mpr fun e there => ?_
          have := kept.past e there
          simp only [decide_eq_true_eq,not_and]
          intro _ _ later
          exact late (later.trans this)
        rw [none_]
        exact Nat.zero_le _
    · exact (kept.recorded pool position time behind marked).trans (grown behind)
  case pending =>
    intro pool position time behind
    rw [now,window] at behind
    rw [count]
    exact (kept.pending pool position time behind).trans (Nat.succ_le_succ (grown behind))

theorem Kept.step (kept : Kept policy s) (event : Event) (meets : orderly policy s event) :
    Kept policy (s.step policy ownerWallet event) := by
  cases event with
  | tick time => exact kept.tick time
  | opens pool position => exact ⟨kept.braked,kept.past,kept.alone,kept.cleared,kept.recorded,kept.pending⟩
  | decides call cfg answers => exact kept.decides answers meets
  | lands call => exact kept.lands meets
  | reports call failed =>
    simp only [Desk.step]
    cases found : s.calls.find? call with
    | none => exact kept
    | some c =>
      obtain ⟨inside,same⟩ := Table.find?_eq_some_iff.mp found
      dsimp only
      by_cases answered : c.answered
      · rwa [if_pos answered]
      · rw [if_neg answered]
        exact kept.answered inside (by simpa using answered) (meets c inside same) rfl rfl rfl rfl

end Steps

/-- Where every decision is informed of what it has to go by, and the gateway knows what lands,
the brakes bind. -/
theorem brakes_bind (policy : RebalancePolicy) (ownerWallet : String) (now windowMs : ℚ) (events : List Event)
    (meets : Run.Meets (Desk.step policy ownerWallet) (fun s event => orderly policy s event) (Desk.start now windowMs) events)
    (pool : String) : Braked policy ((Run.run (Desk.step policy ownerWallet) (Desk.start now windowMs) events).timesOf pool) := by
  have initial : Kept policy (Desk.start now windowMs) := by
    refine ⟨fun _ => ⟨List.Pairwise.nil,fun _ some_ => ?_⟩,?_,?_,?_,?_,?_⟩
    · simp [Desk.timesOf,Desk.start] at some_
    all_goals simp [Desk.start,Desk.rebalanced]
  exact (Run.invariant (I := Kept policy) (fun s event meets kept => kept.step event meets) initial meets).braked pool

namespace Sample

/-- An hour between two rebalances, and one a day. -/
def hourly : RebalancePolicy := ⟨2,.finite (1 / 8),3600000,1,0,10,10⟩

def twiceADay : RebalancePolicy := { hourly with maxPerDay := 2 }

/-- The price has left the range, and moving pays. -/
def drifted : Answers where
  pool := { address := "pool", quoteMint := "", quoteDecimals := 9, activeLevel := 40 }
  position := some ⟨"pool","owner",0,20⟩
  economics := fun _ => some ⟨3,1,1,1,0⟩

def moved (call : ℕ) (position : String) : List Event :=
  [.opens "pool" position,.decides call ⟨"pool",position,false⟩ drifted,.lands call,.reports call false]

def desk (policy : RebalancePolicy) (events : List Event) : Desk :=
  Run.run (Desk.step policy "owner") (Desk.start 0) events

/-- A position account that is used again is braked. -/
theorem brakes_bind_reused : (desk twiceADay (moved 1 "first" ++ .tick 7200000 :: moved 2 "first")).timesOf "pool" = [0,7200000] ∧
    Braked twiceADay ((desk twiceADay (moved 1 "first" ++ .tick 7200000 :: moved 2 "first")).timesOf "pool") := by
  constructor
  · decide +kernel
  · apply brakes_bind
    decide +kernel

/-- The position is opened again at a new account, and a minute later it is rebalanced again. -/
theorem brakes_slip : ¬Braked hourly ((desk hourly (moved 1 "first" ++ .tick 60000 :: moved 2 "second")).timesOf "pool") := by
  have times : (desk hourly (moved 1 "first" ++ .tick 60000 :: moved 2 "second")).timesOf "pool" = [0,60000] := by
    decide +kernel
  rw [times]
  intro braked
  have := braked.apart
  norm_num [hourly] at this

end Sample

end RatifyOs.Pools
