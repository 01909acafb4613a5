import RatifyOs.Strategy.Executor

/-! What a strategy spends, over runs of ticks that a crash may cut off anywhere. -/
namespace RatifyOs.Strategy
open Async Data
open Async.Program hiding pure throw

/-- The number, where it is one. -/
def worth : Double → ℚ
  | .finite q => q
  | _ => 0

section Schedule
variable (p : Params)

def per : Double := num (p.lookup "amountUiPerStep") 0

def total : Double := num (p.lookup "totalBudgetUi") 0

/-- `spentUi` after so many steps that were reported done. -/
def spentAfter : ℕ → Double
  | 0 => num (p.lookup "spentUi") 0
  | n + 1 => num (some (.number (spentAfter n + per p))) 0

def doneAfter : ℕ → Double
  | 0 => p.doneSlices
  | n + 1 => (num (some (.number (doneAfter n + 1))) 0).floor

end Schedule

/-- After so many steps the runner plans one more. -/
def Grants (row : StrategyRow) (n : ℕ) : Prop :=
  match row.kind with
  | .dca => ¬(0 < total row.params ∧ total row.params + tolerance < spentAfter row.params n + per row.params)
  | .twap => ¬row.params.slices ≤ doneAfter row.params n
  | _ => n = 0

section Bounds
variable (deps : GatewayExecutorDeps)

/-- So many swaps are within the budget. -/
def Bound (row : StrategyRow) (n : ℕ) : Prop :=
  match row.kind with
  | .dca => 0 < total row.params → ∀ units, toBaseUnits deps (per row.params) SOL_DECIMALS = .ok units →
      (n * units : ℚ) / 10 ^ SOL_DECIMALS ≤ worth (total row.params) + 1 / 10 ^ 9
  | .twap => (n : ℚ) ≤ worth row.params.slices
  | _ => n ≤ 1

/-- The steps that the runner's own arithmetic grants are within the budget. -/
def Affordable (row : StrategyRow) : Prop := ∀ n, (∀ k ≤ n, Grants row k) → Bound deps row (n + 1)

end Bounds

def landedOf (id : String) (landed : List Landed) : List Landed := landed.filter fun l => l.key.strategy = id

/-- The total input of the landed swaps of a strategy, in base units. -/
def spentOn (id : String) (landed : List Landed) : ℤ := ((landedOf id landed).map Landed.inputAmount).sum

/-- The strategy has not spent past its budget. -/
def Within (landed : List Landed) (row : StrategyRow) : Prop :=
  match row.kind with
  | .dca => 0 < total row.params →
      (spentOn row.id landed : ℚ) / 10 ^ SOL_DECIMALS ≤ worth (total row.params) + 1 / 10 ^ 9
  | .twap => ((landedOf row.id landed).length : ℚ) ≤ worth row.params.slices
  | _ => (landedOf row.id landed).length ≤ 1

def countsDone : Except String Kernel.ExecuteResult → Bool
  | .ok result => (reported result).ok
  | .error _ => false

/-- A swap that lands is reported done, and the tick that began it does not end before the
row that tells of it is saved. -/
def Reported : (op : Act) → World → Luck → Prop
  | .execute _ key, w, luck =>
    key.text ∉ w.claims → luck.lands → countsDone luck.execute
  | .runner .leave, w, _ => w.owed = none
  | _, _, _ => True

instance decidableReported : (op : Act) → (w : World) → (luck : Luck) → Decidable (Reported op w luck)
  | .execute _ key, w, luck => inferInstanceAs (Decidable (key.text ∉ w.claims → luck.lands → countsDone luck.execute))
  | .runner .leave, w, _ => inferInstanceAs (Decidable (w.owed = none))
  | .runner .enter, _, _ | .runner .now, _, _ | .runner (.due _), _, _ | .runner (.price _), _, _
  | .runner (.swap _ _), _, _ | .runner (.notify _ _), _, _ | .runner (.save _), _, _ | .runner (.setStatus _ _), _, _
  | .runner (.create _ _ _ _), _, _ | .getMintInfo _, _, _ | .quote _ _ _ _, _, _ | .buildSwap _, _, _ => .isTrue trivial

section Params
variable (p : Params) (name other : String) (value : Double)

private theorem lookup_replaced :
    List.lookup other (p.map fun entry => if entry.1 = name then (name,Param.number value) else entry) =
      if other = name then (p.lookup name).map fun _ => .number value else p.lookup other := by
  induction p with
  | nil => simp
  | cons entry p ih =>
    obtain ⟨key,held⟩ := entry
    by_cases here : key = name
    · subst here
      by_cases same : other = key
      · simp [same]
      · simp [List.lookup_cons,beq_false_of_ne same,ih,same]
    · by_cases same : other = key
      · subst same
        simp [here]
      · by_cases named : other = name
        · subst named
          simpa [here,List.lookup_cons,beq_false_of_ne same] using ih
        · simp [here,List.lookup_cons,beq_false_of_ne same,ih,named]

theorem lookup_set : (p.set name value).lookup other = if other = name then some (.number value) else p.lookup other := by
  unfold Params.set
  split
  · rename_i there
    rw [lookup_replaced]
    obtain ⟨held,found⟩ := Option.isSome_iff_exists.mp there
    simp [found]
  · rename_i absent
    have missing : p.lookup name = none := Option.not_isSome_iff_eq_none.mp absent
    rw [List.lookup_append]
    by_cases same : other = name
    · simp [same,missing]
    · simp [List.lookup_cons,beq_false_of_ne same,same]

end Params

section Invariant
variable (deps : GatewayExecutorDeps) (stored : Strategies)

/-- The row after `m` steps that were reported done. -/
structure Kept (row₀ row : StrategyRow) (m : ℕ) : Prop where
  id : row.id = row₀.id
  kind : row.kind = row₀.kind
  granted : ∀ k < m, Grants row₀ k
  same : ∀ name, name ≠ "spentUi" → name ≠ "doneSlices" → name ≠ "peak" →
    row.params.lookup name = row₀.params.lookup name
  spent : row₀.kind = .dca → num (row.params.lookup "spentUi") 0 = spentAfter row₀.params m
  done : row₀.kind = .twap → row.params.doneSlices = doneAfter row₀.params m
  fresh : row₀.kind = .trailing_stop ∨ row₀.kind = .take_profit → row.status = .active → m = 0

/-- What holds of the rows and of what has landed wherever a crash may fall. -/
structure Tallied (w : World) : Prop where
  rows : ∀ id row, w.runner.strategies.find? id = some row → ∃ row₀ ∈ stored.rows, ∃ m, Kept row₀ row m ∧
    (w.owed ≠ some id → (landedOf id w.landed).length ≤ m)
  amounts : ∀ l ∈ w.landed, ∀ row₀ ∈ stored.rows, l.key.strategy = row₀.id → row₀.kind = .dca →
    toBaseUnits deps (per row₀.params) SOL_DECIMALS = .ok l.inputAmount
  bounded : ∀ row₀ ∈ stored.rows, Bound deps row₀ (landedOf row₀.id w.landed).length

/-- Between two steps of a tick, with the rows it has still to take. -/
structure Resting (rest : List StrategyRow) (w : World) : Prop where
  tallied : Tallied deps stored w
  paid : w.owed = none
  ahead : ∀ row ∈ rest, w.runner.strategies.find? row.id = some row
  distinct : (rest.map StrategyRow.id).Nodup

/-- Within a step, with the row in hand, which may have one swap still to tell of. -/
structure Holding (extra : ℕ) (rest : List StrategyRow) (strat : StrategyRow) (w : World) : Prop where
  tallied : Tallied deps stored w
  there : ∃ old, w.runner.strategies.find? strat.id = some old
  kept : ∃ row₀ ∈ stored.rows, ∃ m, Kept row₀ strat m ∧ (landedOf strat.id w.landed).length ≤ m + extra
  owed : w.owed = none ∨ w.owed = some strat.id
  ahead : ∀ row ∈ rest, w.runner.strategies.find? row.id = some row ∧ row.id ≠ strat.id
  distinct : (rest.map StrategyRow.id).Nodup

end Invariant

section Arithmetic
variable {deps : GatewayExecutorDeps} {row : StrategyRow}

theorem toBaseUnits_nonneg {x : Double} {decimals : ℕ} {units : ℤ} (made : toBaseUnits deps x decimals = .ok units) :
    0 ≤ units := by
  unfold toBaseUnits at made
  split at made
  · rename_i q
    split at made
    · rename_i inside
      cases made
      apply Int.floor_nonneg.mpr
      have whole : (0 : ℚ) ≤ 10 ^ decimals := by positivity
      have scaled := mul_nonneg inside.1 whole
      linarith
    · cases made
  · cases made

theorem num_finite (v : Option Param) {d : ℚ} : ∃ q, num v (.finite d) = .finite q := by
  unfold num
  split
  · rename_i x
    cases x with
    | finite q => exact ⟨q,rfl⟩
    | infinite n => exact ⟨d,rfl⟩
    | nan => exact ⟨d,rfl⟩
  · exact ⟨d,rfl⟩

theorem slices_finite (p : Params) : ∃ q, p.slices = .finite q ∧ 1 ≤ q ∧ ∃ k : ℤ, q = k := by
  obtain ⟨q,found⟩ := num_finite (p.lookup "slices") (d := 1)
  unfold Params.slices
  have one : (1 : Double) = .finite 1 := by simp
  rw [one,found]
  change ∃ r, Double.max (.finite 1) (.finite ⌊q⌋) = .finite r ∧ _
  unfold Double.max
  rw [if_neg (by simp)]
  split
  · rename_i less
    rw [Double.finite_lt] at less
    exact ⟨_,rfl,less.le,⌊q⌋,rfl⟩
  · exact ⟨1,rfl,le_refl _,1,by simp⟩

theorem Bound.mono {n n' : ℕ} (le : n ≤ n') (bound : Bound deps row n') : Bound deps row n := by
  unfold Bound at bound ⊢
  split at bound
  · intro budget units made
    apply le_trans _ (bound budget units made)
    have nonneg : (0 : ℚ) ≤ units := by exact_mod_cast toBaseUnits_nonneg made
    gcongr
  · exact le_trans (by exact_mod_cast le) bound
  · exact le.trans bound

theorem budget_nonneg (p : Params) (budget : 0 < total p) : (0 : ℚ) ≤ worth (total p) + 1 / 10 ^ 9 := by
  obtain ⟨q,found⟩ : ∃ q, total p = .finite q := num_finite _
  rw [found,Double.ofNat_eq,Double.finite_lt] at budget
  rw [found]
  have positive : 0 < q := by simpa using budget
  simp only [worth]
  positivity

theorem Bound.zero : Bound deps row 0 := by
  unfold Bound
  split
  · intro budget units _
    simpa using budget_nonneg row.params budget
  · obtain ⟨q,found,least,_⟩ := slices_finite row.params
    rw [found]
    simp only [worth]
    simp
    linarith
  · simp

theorem Bound.within {landed : List Landed} (bound : Bound deps row (landedOf row.id landed).length)
    (amounts : ∀ l ∈ landed, l.key.strategy = row.id → row.kind = .dca →
      toBaseUnits deps (per row.params) SOL_DECIMALS = .ok l.inputAmount) : Within landed row := by
  unfold Within
  split
  · rename_i dca
    simp only [Bound,dca] at bound
    intro budget
    have each : ∀ l ∈ landedOf row.id landed, toBaseUnits deps (per row.params) SOL_DECIMALS = .ok l.inputAmount := by
      intro l inside
      obtain ⟨there,mine⟩ := List.mem_filter.mp inside
      exact amounts l there (of_decide_eq_true mine) dca
    cases listed : landedOf row.id landed with
    | nil =>
      simpa [spentOn,listed] using budget_nonneg row.params budget
    | cons first others =>
      have units := each first (by simp [listed])
      have sum : spentOn row.id landed = (landedOf row.id landed).length * first.inputAmount := by
        have equal : (landedOf row.id landed).map Landed.inputAmount =
            List.replicate (landedOf row.id landed).length first.inputAmount := by
          apply List.eq_replicate_iff.mpr
          refine ⟨by simp,?_⟩
          intro amount inside
          obtain ⟨l,there,rfl⟩ := List.mem_map.mp inside
          have other := each l there
          rw [units] at other
          exact (Except.ok.inj other).symm
        unfold spentOn
        rw [equal,List.sum_replicate]
        simp
      rw [sum]
      push_cast
      exact bound budget _ units
  · rename_i twap
    simpa only [Bound,twap] using bound
  · unfold Bound at bound
    split at bound
    · contradiction
    · contradiction
    · exact bound

end Arithmetic

section Rows
variable {row₀ row row' : StrategyRow} {m : ℕ}

theorem Kept.refl (row : StrategyRow) : Kept row row 0 where
  id := rfl
  kind := rfl
  granted _ less := absurd less (Nat.not_lt_zero _)
  same _ _ _ _ := rfl
  spent _ := rfl
  done _ := rfl
  fresh _ _ := rfl

theorem Kept.alike (kept : Kept row₀ row m) (id : row'.id = row.id) (kind : row'.kind = row.kind)
    (params : row'.params = row.params) (active : row'.status = .active → row.status = .active) : Kept row₀ row' m where
  id := id.trans kept.id
  kind := kind.trans kept.kind
  granted := kept.granted
  same := by rw [params]; exact kept.same
  spent := by rw [params]; exact kept.spent
  done := by rw [params]; exact kept.done
  fresh other now := kept.fresh other (active now)

theorem Kept.peak (kept : Kept row₀ row m) (value : Double) :
    Kept row₀ { row with params := row.params.set "peak" value } m where
  id := kept.id
  kind := kept.kind
  granted := kept.granted
  same name other other' other'' := by
    rw [lookup_set,if_neg other'']
    exact kept.same name other other' other''
  spent dca := by
    rw [lookup_set,if_neg (by decide)]
    exact kept.spent dca
  done twap := by
    rw [← kept.done twap]
    simp only [Params.doneSlices,lookup_set]
    rfl
  fresh := kept.fresh

def Planned (row : StrategyRow) (req : StrategySwap) : Prop :=
  match row.kind with
  | .dca => planDca row.params = .swap req
  | .twap => planTwap row.params = .swap req
  | _ => row.status = .active

theorem dca_swap {p : Params} {req : StrategySwap} (planned : planDca p = .swap req) :
    (¬(0 < total p ∧ total p + tolerance < num (p.lookup "spentUi") 0 + per p)) ∧ req.amountUi = per p ∧
      req.inputMint = WSOL_MINT := by
  unfold planDca at planned
  dsimp only at planned
  split_ifs at planned with absent stopped
  cases planned
  exact ⟨stopped,rfl,rfl⟩

theorem twap_swap {p : Params} {req : StrategySwap} (planned : planTwap p = .swap req) : ¬p.slices ≤ p.doneSlices := by
  unfold planTwap at planned
  dsimp only at planned
  split_ifs at planned with stopped
  all_goals exact fun reached => stopped (.inr reached)

theorem Kept.grants (kept : Kept row₀ row m) {req : StrategySwap} (planned : Planned row req) : Grants row₀ m := by
  unfold Planned at planned
  rw [kept.kind] at planned
  unfold Grants
  split at planned
  · rename_i dca
    have allowed := (dca_swap planned).1
    rw [kept.spent dca] at allowed
    simp only [total,per,kept.same "totalBudgetUi" (by decide) (by decide) (by decide),
      kept.same "amountUiPerStep" (by decide) (by decide) (by decide)] at allowed
    exact allowed
  · rename_i twap
    have allowed := twap_swap planned
    rw [kept.done twap] at allowed
    simp only [Params.slices,kept.same "slices" (by decide) (by decide) (by decide)] at allowed
    exact allowed
  · rename_i other other'
    have kinds : row₀.kind = .trailing_stop ∨ row₀.kind = .take_profit := by
      cases kind : row₀.kind with
      | dca => exact absurd kind other
      | twap => exact absurd kind other'
      | trailing_stop => exact .inl rfl
      | take_profit => exact .inr rfl
    rw [kept.fresh kinds planned]

theorem Kept.progress (kept : Kept row₀ row m) {req : StrategySwap} (planned : Planned row req)
    (calm : row'.id = row.id ∧ row'.kind = row.kind ∧ row'.params = row.params) :
    Kept row₀ (applyProgress row' req) (m + 1) := by
  obtain ⟨id,kind,params⟩ := calm
  have grants := kept.grants planned
  have granted : ∀ k < m + 1, Grants row₀ k := by
    intro k less
    rcases Nat.lt_succ_iff_lt_or_eq.mp less with before | rfl
    · exact kept.granted k before
    · exact grants
  unfold Planned at planned
  rw [kept.kind] at planned
  unfold applyProgress
  rw [kind,kept.kind,params]
  cases which : row₀.kind with
  | dca =>
    rw [which] at planned
    dsimp only at planned ⊢
    refine ⟨id.trans kept.id,which.symm,granted,?_,?_,?_,?_⟩
    · intro name other other' other''
      rw [lookup_set,if_neg other]
      exact kept.same name other other' other''
    · intro _
      rw [lookup_set,if_pos rfl,(dca_swap planned).2.1,kept.spent which]
      simp only [spentAfter,per,kept.same "amountUiPerStep" (by decide) (by decide) (by decide)]
    · intro twap
      rw [which] at twap
      cases twap
    · rintro (other | other) _
      · rw [which] at other
        cases other
      · rw [which] at other
        cases other
  | twap =>
    dsimp only
    refine ⟨id.trans kept.id,which.symm,granted,?_,?_,?_,?_⟩
    · intro name other other' other''
      rw [lookup_set,if_neg other']
      exact kept.same name other other' other''
    · intro dca
      rw [which] at dca
      cases dca
    · intro _
      rw [show doneAfter row₀.params (m + 1) = (num (some (.number (row.params.doneSlices + 1))) 0).floor by
        rw [kept.done which]
        rfl]
      simp only [Params.doneSlices,lookup_set,if_true]
    · rintro (other | other) _
      · rw [which] at other
        cases other
      · rw [which] at other
        cases other
  | trailing_stop | take_profit =>
    dsimp only
    refine ⟨id.trans kept.id,which.symm,granted,kept.same,?_,?_,?_⟩
    · intro dca
      rw [which] at dca
      cases dca
    · intro twap
      rw [which] at twap
      cases twap
    · rintro _ ⟨⟩

theorem Strategies.find?_saved (t : Strategies) (row : StrategyRow) (id : String) :
    (t.save row).find? id = if row.id = id then (t.find? id).map fun old => { old with
      status := row.status
      params := row.params
      nextRunAt := row.nextRunAt
      lastRunAt := row.lastRunAt
      runs := row.runs
      errors := row.errors
      lastError := row.lastError } else t.find? id := by
  unfold Strategies.save
  split
  · rename_i old found
    rw [Table.find?_put]
    have same : old.id = row.id := Table.key_of_find? found
    by_cases here : row.id = id
    · subst here
      simp [same,found]
    · simp [here,same]
  · rename_i absent
    by_cases here : row.id = id
    · simp [← here,absent]
    · simp [here]

end Rows

section Hold
variable {deps : GatewayExecutorDeps} {stored : Strategies} {extra : ℕ} {rest : List StrategyRow}
  {strat strat' : StrategyRow} {w : World}

theorem Holding.alike (holding : Holding deps stored extra rest strat w) (id : strat'.id = strat.id)
    (kind : strat'.kind = strat.kind) (params : strat'.params = strat.params)
    (active : strat'.status = .active → strat.status = .active) : Holding deps stored extra rest strat' w where
  tallied := holding.tallied
  there := by rw [id]; exact holding.there
  kept := by
    obtain ⟨row₀,inside,m,kept,counted⟩ := holding.kept
    exact ⟨row₀,inside,m,kept.alike id kind params active,by rw [id]; exact counted⟩
  owed := by rw [id]; exact holding.owed
  ahead := by rw [id]; exact holding.ahead
  distinct := holding.distinct

theorem Holding.loosen (holding : Holding deps stored 0 rest strat w) : Holding deps stored 1 rest strat w where
  tallied := holding.tallied
  there := holding.there
  kept := by
    obtain ⟨row₀,inside,m,kept,counted⟩ := holding.kept
    exact ⟨row₀,inside,m,kept,Nat.le_succ_of_le counted⟩
  owed := holding.owed
  ahead := holding.ahead
  distinct := holding.distinct

theorem Holding.progress (holding : Holding deps stored 1 rest strat w) {req : StrategySwap} (planned : Planned strat req)
    (calm : strat'.id = strat.id ∧ strat'.kind = strat.kind ∧ strat'.params = strat.params) :
    Holding deps stored 0 rest (applyProgress strat' req) w := by
  have same : (applyProgress strat' req).id = strat.id := by
    unfold applyProgress
    dsimp only
    split <;> exact calm.1
  constructor
  · exact holding.tallied
  · rw [same]
    exact holding.there
  · obtain ⟨row₀,inside,m,kept,counted⟩ := holding.kept
    exact ⟨row₀,inside,m + 1,kept.progress planned calm,by rw [same]; exact counted⟩
  · rw [same]
    exact holding.owed
  · rw [same]
    exact holding.ahead
  · exact holding.distinct

theorem unique_row {row₀ row₀' : StrategyRow} (inside : row₀ ∈ stored.rows) (inside' : row₀' ∈ stored.rows)
    (same : row₀.id = row₀'.id) : row₀ = row₀' :=
  List.inj_on_of_nodup_map stored.distinct inside inside' same

theorem Holding.save (holding : Holding deps stored 0 rest strat w) :
    Resting deps stored rest { w with
      runner := { w.runner with strategies := w.runner.strategies.save strat }
      owed := if w.owed = some strat.id then none else w.owed } := by
  have paid : (if w.owed = some strat.id then none else w.owed) = none := by
    rcases holding.owed with none' | mine
    · simp [none']
    · simp [mine]
  refine ⟨⟨?_,holding.tallied.amounts,holding.tallied.bounded⟩,paid,?_,holding.distinct⟩
  · intro id row found
    change (w.runner.strategies.save strat).find? id = some row at found
    rw [Strategies.find?_saved] at found
    split at found
    · rename_i here
      subst here
      obtain ⟨old,there,rfl⟩ := Option.map_eq_some_iff.mp found
      obtain ⟨row₀,inside,m,kept,counted⟩ := holding.kept
      obtain ⟨row₀',inside',_,kept',_⟩ := holding.tallied.rows strat.id old there
      have key : old.id = strat.id := Table.key_of_find? there
      obtain rfl := unique_row inside inside' (kept.id.symm.trans (key.symm.trans kept'.id))
      exact ⟨row₀,inside,m,kept.alike key (kept'.kind.trans kept.kind.symm) rfl fun active => active,fun _ => counted⟩
    · rename_i other
      obtain ⟨row₀,inside,m,kept,counted⟩ := holding.tallied.rows id row found
      refine ⟨row₀,inside,m,kept,fun _ => counted ?_⟩
      intro owed
      rcases holding.owed with none' | mine
      · rw [none'] at owed
        cases owed
      · rw [mine,Option.some.injEq] at owed
        exact other owed
  · intro row ahead
    obtain ⟨found,other⟩ := holding.ahead row ahead
    change (w.runner.strategies.save strat).find? row.id = some row
    rw [Strategies.find?_saved,if_neg (Ne.symm other)]
    exact found

theorem Holding.land (affordable : ∀ row ∈ stored.rows, Affordable deps row) (holding : Holding deps stored 0 rest strat w)
    {req : StrategySwap} (planned : Planned strat req) {key : RunKey} (mine : key.strategy = strat.id) {amount : ℤ}
    (priced : strat.kind = .dca → toBaseUnits deps (per strat.params) SOL_DECIMALS = .ok amount) (claims : List String) :
    Holding deps stored 1 rest strat
      { w with claims := claims, landed := ⟨key,amount⟩ :: w.landed, owed := some key.strategy } := by
  have count : ∀ id, (landedOf id (⟨key,amount⟩ :: w.landed)).length =
      (landedOf id w.landed).length + if id = strat.id then 1 else 0 := by
    intro id
    unfold landedOf
    by_cases here : id = strat.id
    · simp [here,mine]
    · simp [here,mine,Ne.symm here]
  obtain ⟨row₀,inside,m,kept,counted⟩ := holding.kept
  refine ⟨⟨?_,?_,?_⟩,holding.there,?_,.inr (by rw [mine]),holding.ahead,holding.distinct⟩
  · intro id row found
    obtain ⟨row₀,inside,m,kept,counted⟩ := holding.tallied.rows id row found
    refine ⟨row₀,inside,m,kept,?_⟩
    intro other
    have apart : id ≠ strat.id := by
      rintro rfl
      exact other (by rw [mine])
    rw [count,if_neg apart]
    apply counted
    intro owed
    rcases holding.owed with none' | own
    · rw [none'] at owed
      cases owed
    · rw [own,Option.some.injEq] at owed
      exact apart owed.symm
  · intro l landed row₀' inside' same dca
    rcases List.mem_cons.mp landed with rfl | before
    · obtain rfl := unique_row inside inside' (kept.id.symm.trans (mine.symm.trans same))
      have price := priced (kept.kind.trans dca)
      simp only [per,kept.same "amountUiPerStep" (by decide) (by decide) (by decide)] at price
      exact price
    · exact holding.tallied.amounts l before row₀' inside' same dca
  · intro row₀' inside'
    rw [count]
    split
    · rename_i here
      obtain rfl := unique_row inside inside' (kept.id.symm.trans here.symm)
      have granted : ∀ k ≤ m, Grants row₀ k := by
        intro k le
        rcases le.lt_or_eq with less | rfl
        · exact kept.granted k less
        · exact kept.grants planned
      apply Bound.mono _ (affordable row₀ inside m granted)
      rw [here]
      omega
    · exact holding.tallied.bounded row₀' inside'
  · refine ⟨row₀,inside,m,kept,?_⟩
    rw [count,if_pos rfl]
    omega

end Hold

section Steps
variable {deps : GatewayExecutorDeps} {stored : Strategies} {extra : ℕ} {rest : List StrategyRow}
  {strat : StrategyRow} {w : World}

/-- What an effect of the gateway's asks, and through it one of the runner's. -/
abbrev fine (deps : GatewayExecutorDeps) (stored : Strategies) : Spec Act Act.Ans String World :=
  effect act Reported (Tallied deps stored)

abbrev coarse (deps : GatewayExecutorDeps) (stored : Strategies) : Spec Op Op.Ans String World :=
  within (acts deps) (fine deps stored)

theorem coarse_mono : Spec.Monotone (coarse deps stored) := within_mono effect_mono

theorem runner_holds {op : Op} (own : acts deps op = call (Act.runner op)) {Q : op.Ans → World → Prop}
    {E : String → World → Prop} (tallied : Tallied deps stored w)
    (rest : ∀ luck, Reported (.runner op) w luck →
      match (act luck (.runner op) w).1 with
      | .ok value => Q value (act luck (.runner op) w).2
      | .error error => E error (act luck (.runner op) w).2) :
    (call op : Runner op.Ans).holds (coarse deps stored) Q E w := by
  rw [holds_call]
  change (acts deps op).holds (fine deps stored) _ _ w
  rw [own,holds_call]
  refine ⟨tallied,?_⟩
  intro luck reported
  have result := rest luck reported
  generalize act luck (.runner op) w = pair at result ⊢
  obtain ⟨answer,after⟩ := pair
  cases answer <;> exact result

theorem now_holds {P : World → Prop} (here : P w) (tallied : Tallied deps stored w) {E : String → World → Prop} :
    (call Op.now : Runner ℤ).holds (coarse deps stored) (fun _ => P) E w :=
  runner_holds rfl tallied fun _ _ => here

theorem price_holds {P : World → Prop} (mint : String) (here : P w) (tallied : Tallied deps stored w) :
    (call (Op.price mint) : Runner (Option Double)).holds (coarse deps stored) (fun _ => P) (fun _ => P) w := by
  apply runner_holds rfl tallied
  intro luck _
  simp only [act,handle,settledBy]
  cases luck.sample.price <;> exact here

theorem notify_holds {P : World → Prop} (e : StrategyExecutor) (strat : StrategyRow) (text : String) (here : P w)
    (tallied : Tallied deps stored w) {E : String → World → Prop} :
    (notify e strat text).holds (coarse deps stored) (fun _ => P) E w := by
  unfold notify
  split
  · rw [holds_tryCatch]
    apply runner_holds rfl tallied
    intro luck _
    simp only [act,handle,settledBy]
    cases luck.sample.notify <;> exact here
  · exact here

theorem save_holds {Q : Unit → World → Prop} {E : String → World → Prop} (holding : Holding deps stored 0 rest strat w)
    (done : ∀ w, Resting deps stored rest w → Q () w) (failed : ∀ error, E error w) :
    (call (Op.save strat) : Runner Unit).holds (coarse deps stored) Q E w := by
  apply runner_holds rfl holding.tallied
  intro luck _
  simp only [act,handle,Sample.statement]
  cases luck.sample.failure with
  | some message => exact failed message
  | none => exact done _ holding.save

theorem reschedule_holds (holding : Holding deps stored 0 rest strat w) {E : String → World → Prop} :
    (reschedule strat).holds (coarse deps stored) (fun row => Holding deps stored 0 rest row) E w := by
  unfold reschedule
  rw [holds_bind]
  apply holds_mono coarse_mono _ (now_holds holding holding.tallied) _ fun _ _ thrown => thrown
  intro now after holding
  exact holding.alike rfl rfl rfl fun active => active

theorem broken_holds (message : String) (holding : Holding deps stored 0 rest strat w) :
    (broken strat message).holds (coarse deps stored) (fun _ => Resting deps stored rest)
      (fun _ => Tallied deps stored) w := by
  unfold broken
  dsimp only
  refine holds_then coarse_mono (reschedule_holds (holding.alike ?_ ?_ ?_ ?_)) ?_
  · rfl
  · rfl
  · rfl
  · dsimp only
    split
    · rintro ⟨⟩
    · exact fun active => active
  · intro row after holding
    exact save_holds holding (fun _ resting => resting) fun _ => holding.tallied

theorem saved_holds {then_ : Runner Unit} (holding : Holding deps stored 0 rest strat w)
    (continues : ∀ w, Resting deps stored rest w → then_.holds (coarse deps stored) (fun _ => Resting deps stored rest)
      (fun _ => Tallied deps stored) w) :
    (saved strat then_).holds (coarse deps stored) (fun _ => Resting deps stored rest)
      (fun _ => Tallied deps stored) w := by
  unfold saved
  rw [holds_attempt]
  exact save_holds holding continues fun error => broken_holds error holding

theorem answered_holds (e : StrategyExecutor) {req : StrategySwap} (planned : Planned strat req) {strat' : StrategyRow}
    (calm : strat'.id = strat.id ∧ strat'.kind = strat.kind ∧ strat'.params = strat.params ∧ strat'.status = strat.status)
    (res : StrategySwapResult) (holding : Holding deps stored 1 rest strat w)
    (failed : res.ok = false → Holding deps stored 0 rest strat w) {E : String → World → Prop} :
    (answered e strat' req res).holds (coarse deps stored) (fun row => Holding deps stored 0 rest row) E w := by
  unfold answered
  split
  · unfold succeeded
    dsimp only
    apply holds_then coarse_mono (notify_holds e _ _ holding holding.tallied)
    exact fun _ _ holding => holding.progress planned ⟨calm.1,calm.2.1,calm.2.2.1⟩
  · rename_i refused
    have holding := failed (by simpa using refused)
    unfold Strategy.refused
    dsimp only
    split
    · apply holds_then coarse_mono (notify_holds e _ _ holding holding.tallied)
      exact fun _ _ holding => holding.alike calm.1 calm.2.1 calm.2.2.1 (by rintro ⟨⟩)
    · exact holding.alike calm.1 calm.2.1 calm.2.2.1 fun active => calm.2.2.2 ▸ active

theorem completed_holds (e : StrategyExecutor) (holding : Holding deps stored 0 rest strat w) {E : String → World → Prop} :
    (completed e strat).holds (coarse deps stored) (fun row => Holding deps stored 0 rest row) E w := by
  unfold completed
  split
  · apply holds_then coarse_mono (notify_holds e _ _ holding holding.tallied)
    exact fun _ _ holding => holding.alike rfl rfl rfl (by rintro ⟨⟩)
  · exact holding

theorem conclude_holds (e : StrategyExecutor) {req : StrategySwap} (planned : Planned strat req)
    (res : StrategySwapResult) (holding : Holding deps stored 1 rest strat w)
    (failed : res.ok = false → Holding deps stored 0 rest strat w) :
    (conclude e strat req res).holds (coarse deps stored) (fun _ => Resting deps stored rest)
      (fun _ => Tallied deps stored) w := by
  unfold conclude
  have stamped : (call Op.now : Runner ℤ).holds (coarse deps stored)
      (fun _ w => Holding deps stored 1 rest strat w ∧ (res.ok = false → Holding deps stored 0 rest strat w))
      (fun _ => Tallied deps stored) w := now_holds ⟨holding,failed⟩ holding.tallied
  apply holds_then coarse_mono stamped
  rintro now w ⟨holding,failed⟩
  refine holds_then coarse_mono (answered_holds e planned ?_ res holding failed) ?_
  · exact ⟨rfl,rfl,rfl,rfl⟩
  intro row w holding
  apply holds_then coarse_mono (completed_holds e holding)
  intro row w holding
  apply holds_then coarse_mono (reschedule_holds holding)
  intro row w holding
  exact saved_holds holding fun _ resting => resting

theorem port_holds {op : Act} (asks : ∀ luck w, (act luck op w).2 = w) {P : World → Prop} (here : P w)
    (tallied : Tallied deps stored w) :
    (call op : Executor op.Ans).holds (fine deps stored) (fun _ => P) (fun _ => P) w := by
  rw [holds_call]
  refine ⟨tallied,?_⟩
  intro luck _
  have same := asks luck w
  generalize act luck op w = pair at same ⊢
  obtain ⟨answer,after⟩ := pair
  obtain rfl : after = w := same
  cases answer <;> exact here

theorem decimalsFor_holds (mint : String) (holding : Holding deps stored 0 rest strat w) :
    (decimalsFor mint).holds (fine deps stored)
      (fun decimals w => Holding deps stored 0 rest strat w ∧ (mint = WSOL_MINT → decimals = SOL_DECIMALS))
      (fun _ => Holding deps stored 0 rest strat) w := by
  unfold decimalsFor
  split
  · exact ⟨holding,fun _ => rfl⟩
  · rename_i other
    apply holds_mono effect_mono _ (port_holds (fun _ _ => rfl) holding holding.tallied)
    · exact fun _ _ holding => ⟨holding,fun same => absurd same other⟩
    · exact fun _ _ holding => holding

theorem buildIntent_holds (req : StrategySwap) (holding : Holding deps stored 0 rest strat w) :
    (buildIntent deps req).holds (fine deps stored)
      (fun intent w => Holding deps stored 0 rest strat w ∧
        (req.inputMint = WSOL_MINT → toBaseUnits deps req.amountUi SOL_DECIMALS = .ok intent.inputAmount))
      (fun _ => Holding deps stored 0 rest strat) w := by
  unfold buildIntent
  rw [holds_bind,holds_reject]
  refine ⟨fun _ => holding,fun _ => ?_⟩
  apply holds_then effect_mono (decimalsFor_holds req.inputMint holding)
  rintro decimals w ⟨holding,sol⟩
  rw [holds_bind,holds_ofExcept]
  refine ⟨fun amount priced => ?_,fun _ _ => holding⟩
  rw [holds_bind,holds_reject]
  refine ⟨fun _ => holding,fun _ => ?_⟩
  apply holds_then effect_mono (port_holds (fun _ _ => rfl) holding holding.tallied)
  intro quote w holding
  apply holds_then effect_mono (port_holds (fun _ _ => rfl) holding holding.tallied)
  intro build w holding
  apply holds_then effect_mono (decimalsFor_holds req.outputMint holding)
  rintro _ w ⟨holding,_⟩
  refine ⟨holding,?_⟩
  intro wrapped
  rw [sol wrapped] at priced
  exact priced

theorem swap_holds (affordable : ∀ row ∈ stored.rows, Affordable deps row) {req : StrategySwap}
    (planned : Planned strat req) {key : RunKey} (mine : key.strategy = strat.id)
    (holding : Holding deps stored 0 rest strat w) {E : String → World → Prop} :
    (call (Op.swap req key) : Runner StrategySwapResult).holds (coarse deps stored)
      (fun res w => Holding deps stored 1 rest strat w ∧ (res.ok = false → Holding deps stored 0 rest strat w)) E w := by
  rw [holds_call]
  change (swap deps req key).holds (fine deps stored) _ _ w
  unfold swap
  rw [holds_tryCatch]
  apply holds_then effect_mono
  · apply holds_mono effect_mono _ (buildIntent_holds req holding) (fun _ _ built => built)
    exact fun _ w holding => ⟨holding.loosen,fun _ => holding⟩
  rintro intent w ⟨holding,priced⟩
  rw [holds_bind,holds_call]
  refine ⟨holding.tallied,?_⟩
  intro luck told
  by_cases taken : key.text ∈ w.claims
  · rw [show act luck (.execute intent key) w = (.ok (duplicate luck.prior),w) by simp [act,taken]]
    exact ⟨holding.loosen,fun _ => holding⟩
  · have claimed : Holding deps stored 0 rest strat { w with claims := key.text :: w.claims } :=
      ⟨⟨holding.tallied.rows,holding.tallied.amounts,holding.tallied.bounded⟩,holding.there,holding.kept,holding.owed,
        holding.ahead,holding.distinct⟩
    by_cases lands : luck.lands
    · obtain ⟨result,answer,done⟩ : ∃ result, luck.execute = .ok result ∧ (reported result).ok := by
        have sure := told taken lands
        cases answer : luck.execute with
        | ok result => exact ⟨result,rfl,by simpa [countsDone,answer] using sure⟩
        | error error => simp [countsDone,answer] at sure
      rw [show act luck (.execute intent key) w = (.ok result,{ w with
        claims := key.text :: w.claims
        landed := ⟨key,intent.inputAmount⟩ :: w.landed
        owed := some key.strategy }) by simp [act,taken,lands,answer]]
      have price : strat.kind = .dca → toBaseUnits deps (per strat.params) SOL_DECIMALS = .ok intent.inputAmount := by
        intro dca
        simp only [Planned,dca] at planned
        obtain ⟨_,amount,wrapped⟩ := dca_swap planned
        rw [← amount]
        exact priced wrapped
      refine ⟨holding.land affordable planned mine price _,?_⟩
      intro refused
      rw [done] at refused
      cases refused
    · rw [show act luck (.execute intent key) w = (luck.execute,{ w with claims := key.text :: w.claims }) by
        simp [act,taken,lands]]
      cases luck.execute with
      | ok result => exact ⟨claimed.loosen,fun _ => claimed⟩
      | error error => exact ⟨claimed.loosen,fun _ => claimed⟩

theorem plan_holds (e : StrategyExecutor) (active : strat.status = .active) (holding : Holding deps stored 0 rest strat w) :
    (plan e strat).holds (coarse deps stored)
      (fun outcome w => Holding deps stored 0 rest outcome.1 w ∧ ∀ req, outcome.2 = .swap req → Planned outcome.1 req)
      (fun _ => Holding deps stored 0 rest strat) w := by
  unfold plan
  dsimp only
  split
  · rename_i dca
    refine ⟨holding,?_⟩
    intro req planned
    simpa only [Planned,dca] using planned
  · rename_i twap
    refine ⟨holding,?_⟩
    intro req planned
    simpa only [Planned,twap] using planned
  · rename_i stop
    split
    · exact ⟨holding,by rintro _ ⟨⟩⟩
    · apply holds_then coarse_mono (price_holds _ holding holding.tallied)
      rintro (_ | price) w holding
      · exact ⟨holding,by rintro _ ⟨⟩⟩
      · have peaked : ∀ value, Holding deps stored 0 rest { strat with params := strat.params.set "peak" value } w := by
          intro value
          obtain ⟨row₀,inside,m,kept,counted⟩ := holding.kept
          exact ⟨holding.tallied,holding.there,⟨row₀,inside,m,kept.peak value,counted⟩,holding.owed,holding.ahead,
            holding.distinct⟩
        refine ⟨peaked _,?_⟩
        intro req _
        simpa only [Planned,stop] using active
  · rename_i profit
    split
    · exact ⟨holding,by rintro _ ⟨⟩⟩
    · apply holds_then coarse_mono (price_holds _ holding holding.tallied)
      rintro (_ | price) w holding
      · exact ⟨holding,by rintro _ ⟨⟩⟩
      · refine ⟨holding,?_⟩
        intro req _
        simpa only [Planned,profit] using active

theorem step_holds (affordable : ∀ row ∈ stored.rows, Affordable deps row) (e : StrategyExecutor)
    (active : strat.status = .active) (holding : Holding deps stored 0 rest strat w) :
    (step e strat).holds (coarse deps stored) (fun _ => Resting deps stored rest) (fun _ => Tallied deps stored) w := by
  unfold step
  rw [holds_attempt]
  apply holds_mono coarse_mono _ (plan_holds e active holding)
  · rintro ⟨row,decided⟩ w ⟨holding,allowed⟩
    cases decided with
    | done =>
      refine saved_holds (holding.alike ?_ ?_ ?_ ?_) ?_
      · rfl
      · rfl
      · rfl
      · rintro ⟨⟩
      · intro w resting
        exact notify_holds e _ _ resting resting.tallied
    | skip =>
      apply holds_then coarse_mono (reschedule_holds holding)
      intro row w holding
      exact saved_holds holding fun _ resting => resting
    | swap req =>
      dsimp only
      rw [holds_attempt]
      apply holds_mono coarse_mono _ (swap_holds affordable (allowed req rfl) rfl holding)
      · rintro res w ⟨holding,failed⟩
        exact conclude_holds e (allowed req rfl) res holding failed
      · exact fun error w holding => broken_holds error holding
  · exact fun error w holding => broken_holds error holding

theorem steps_holds (affordable : ∀ row ∈ stored.rows, Affordable deps row) (e : StrategyExecutor)
    (rows : List StrategyRow) (active : ∀ row ∈ rows, row.status = .active) (resting : Resting deps stored rows w) :
    (steps e rows).holds (coarse deps stored) (fun _ w => Tallied deps stored w ∧ w.owed = none)
      (fun _ => Tallied deps stored) w := by
  induction rows generalizing w with
  | nil => exact ⟨resting.tallied,resting.paid⟩
  | cons strat rows ih =>
    obtain ⟨apart,distinct⟩ := List.nodup_cons.mp (show (strat.id :: rows.map StrategyRow.id).Nodup from resting.distinct)
    have there := resting.ahead strat List.mem_cons_self
    unfold steps
    apply holds_then coarse_mono (step_holds affordable e (active strat List.mem_cons_self) _)
    · intro _ w resting
      exact ih (fun row inside => active row (List.mem_cons_of_mem _ inside)) resting
    · obtain ⟨row₀,inside,m,kept,counted⟩ := resting.tallied.rows strat.id strat there
      refine ⟨resting.tallied,⟨strat,there⟩,⟨row₀,inside,m,kept,counted ?_⟩,.inl resting.paid,?_,distinct⟩
      · rw [resting.paid]
        simp
      · intro row inside
        refine ⟨resting.ahead row (List.mem_cons_of_mem _ inside),?_⟩
        intro same
        exact apart (same ▸ List.mem_map_of_mem inside)

theorem Tallied.running (tallied : Tallied deps stored w) (running : Bool) :
    Tallied deps stored { w with runner := { w.runner with running } } :=
  ⟨tallied.rows,tallied.amounts,tallied.bounded⟩

theorem due_nodup (t : Strategies) (now : ℤ) : ((t.due now).map StrategyRow.id).Nodup := by
  unfold Strategies.due
  have sorted := (List.perm_insertionSort (fun a b : StrategyRow => a.nextRunAt ≤ b.nextRunAt)
    (t.select fun r => r.status = .active ∧ r.nextRunAt ≤ now)).map StrategyRow.id
  rw [sorted.nodup_iff]
  exact t.distinct.sublist (List.filter_sublist.map StrategyRow.id)

theorem pass_holds (affordable : ∀ row ∈ stored.rows, Affordable deps row) (e : StrategyExecutor)
    (tallied : Tallied deps stored w) (paid : w.owed = none) :
    (do
      let now ← call Op.now
      let rows ← call (Op.due now)
      steps e rows : Runner Unit).holds (coarse deps stored) (fun _ w => Tallied deps stored w ∧ w.owed = none)
      (fun _ => Tallied deps stored) w := by
  have stamped : (call Op.now : Runner ℤ).holds (coarse deps stored) (fun _ w => Tallied deps stored w ∧ w.owed = none)
      (fun _ => Tallied deps stored) w := now_holds ⟨tallied,paid⟩ tallied
  apply holds_then coarse_mono stamped
  rintro now w ⟨tallied,paid⟩
  rw [holds_bind]
  apply runner_holds rfl tallied
  intro luck _
  simp only [act,handle,Sample.statement]
  cases luck.sample.failure with
  | some message => exact tallied
  | none =>
    apply steps_holds affordable e
    · exact fun row inside => (Strategies.active_of_due inside).2
    · exact ⟨tallied,paid,fun row inside => Table.find?_of_mem (Strategies.active_of_due inside).1,due_nodup _ _⟩

theorem tick_holds (affordable : ∀ row ∈ stored.rows, Affordable deps row) (e : StrategyExecutor)
    (tallied : Tallied deps stored w) (paid : w.owed = none) :
    (tick e).holds (coarse deps stored) (fun _ w => Tallied deps stored w ∧ w.owed = none)
      (fun _ w => Tallied deps stored w ∧ w.owed = none) w := by
  have leave : ∀ {Q : Unit → World → Prop} {E : String → World → Prop} {w : World}, Tallied deps stored w →
      (∀ w, Tallied deps stored w ∧ w.owed = none → Q () w) →
      (call Op.leave : Runner Unit).holds (coarse deps stored) Q E w := by
    intro Q E w tallied returns
    apply runner_holds rfl tallied
    exact fun _ paid => returns _ ⟨tallied.running false,paid⟩
  unfold tick
  rw [holds_bind]
  apply runner_holds rfl tallied
  intro luck _
  cases running : w.runner.running with
  | true =>
    simp only [act,handle,running,Bool.not_true]
    exact ⟨tallied.running true,paid⟩
  | false =>
    simp only [act,handle,running,Bool.not_false,if_true]
    rw [holds_bind,holds_tryCatch]
    apply holds_mono coarse_mono _ (pass_holds affordable e (tallied.running true) paid)
    · exact fun _ w both => leave both.1 fun _ both => both
    · intro error w tallied
      rw [holds_bind]
      exact leave tallied fun _ both => both

theorem spree_holds (affordable : ∀ row ∈ stored.rows, Affordable deps row) (e : StrategyExecutor) (w : World)
    (good : Tallied deps stored w ∧ w.owed = none) :
    (spree deps e).holds (fine deps stored) (fun _ w => Tallied deps stored w ∧ w.owed = none)
      (fun _ w => Tallied deps stored w ∧ w.owed = none) w := by
  unfold spree
  rw [holds_inline]
  exact tick_holds affordable e good.1 good.2

theorem Tallied.within (tallied : Tallied deps stored w) : ∀ row ∈ stored.rows, Within w.landed row := by
  intro row inside
  apply (tallied.bounded row inside).within
  exact fun l landed mine dca => tallied.amounts l landed row inside mine dca

end Steps

/-- The runner before its first tick, over the strategies that are stored and the keys that
are taken. -/
def fresh (stored : Strategies) (claims : List String) : World := ⟨⟨stored,false⟩,claims,[],none⟩

theorem tallied_fresh (deps : GatewayExecutorDeps) (stored : Strategies) (claims : List String) :
    Tallied deps stored (fresh stored claims) where
  rows _ row found := ⟨row,Table.mem_of_find? found,0,.refl row,fun _ => Nat.le_refl 0⟩
  amounts _ landed := absurd landed List.not_mem_nil
  bounded _ _ := .zero

/-- Where the ticks stand that have ended or been cut off, and the one that is under way. -/
def reached (deps : GatewayExecutorDeps) (e : StrategyExecutor) (start : World) (ended : List (List Luck))
    (current : List Luck) : World :=
  ((spree deps e).exec act current ((spree deps e).lives act restarted start ended)).2

/-- Every landed swap is reported done, and no tick ends and no crash falls before the row
that tells of it is saved. -/
structure Told (deps : GatewayExecutorDeps) (e : StrategyExecutor) (start : World) (ended : List (List Luck))
    (current : List Luck) : Prop where
  before : (spree deps e).AllCalm act Reported restarted (fun w => w.owed = none) start ended
  now : (spree deps e).Fitting act Reported current ((spree deps e).lives act restarted start ended)

/-- No strategy spends past its budget, at any point of a run in which every landed swap is
told of, where the steps its own arithmetic grants are within the budget. -/
theorem budget_kept (deps : GatewayExecutorDeps) (e : StrategyExecutor) (stored : Strategies) (claims : List String)
    (affordable : ∀ row ∈ stored.rows, Affordable deps row) (ended : List (List Luck)) (current : List Luck)
    (told : Told deps e (fresh stored claims) ended current) :
    ∀ row ∈ stored.rows, Within (reached deps e (fresh stored claims) ended current).landed row := by
  have start : Tallied deps stored (fresh stored claims) ∧ (fresh stored claims).owed = none :=
    ⟨tallied_fresh deps stored claims,rfl⟩
  have crashes : ∀ w, Tallied deps stored w → w.owed = none →
      Tallied deps stored (restarted w) ∧ (restarted w).owed = none := fun w tallied paid => ⟨tallied.running false,paid⟩
  have between := lives_keep (spree_holds affordable e) crashes start told.before
  have now := exec_holds _ current (spree_holds affordable e _ between) told.now
  unfold reached
  generalize (spree deps e).exec act current _ = result at now ⊢
  obtain ⟨program,w⟩ := result
  cases program with
  | pure value => exact now.1.within
  | throw error => exact now.1.within
  | perform op next => exact now.within

/-! One budget of one step. -/
section Once

def once : StrategyRow where
  id := "dca"
  userId := 1
  kind := .dca
  status := .active
  params := [("token",.text "mint"),("amountUiPerStep",.number 1),("totalBudgetUi",.number 1)]
  nextRunAt := 0
  createdAt := 0
  lastRunAt := none
  runs := 0
  errors := 0
  lastError := none

def onceStored : Strategies := ⟨[once],by decide⟩

def plain : GatewayExecutorDeps := ⟨none,none,fun _ => "",fun _ _ _ => []⟩

def mute : StrategyExecutor := ⟨false,false⟩

def lucky (now : ℤ) : Luck where
  sample := ⟨now,"",.ok none,.error "",.ok (),none⟩
  decimals := .ok 6
  quote := .ok ⟨2000,1990,100⟩
  build := .ok ⟨"AQAB",100,some 10⟩
  execute := .ok { tradeId := "id", state := .confirmed }
  lands := true
  prior := ("id",.sent,some "signature")

instance (row : StrategyRow) (n : ℕ) : Decidable (Grants row n) := by
  unfold Grants
  split <;> infer_instance

theorem affordable_once : ∀ row ∈ onceStored.rows, Affordable plain row := by
  intro row inside
  obtain rfl : row = once := by simpa [onceStored] using inside
  intro n granted
  have stops : ¬Grants once 1 := by decide +kernel
  obtain rfl : n = 0 := by
    by_contra more
    exact stops (granted 1 (by omega))
  intro _ units made
  have priced : toBaseUnits plain (per once.params) SOL_DECIMALS = .ok 1000000000 := by decide +kernel
  have budget : worth (total once.params) = 1 := by decide +kernel
  rw [priced,Except.ok.injEq] at made
  subst made
  rw [budget]
  norm_num [SOL_DECIMALS]

def tickOf (luck : Luck) : List Luck := List.replicate 12 luck

theorem told_once : Told plain mute (fresh onceStored []) [] (tickOf (lucky 0)) where
  before := trivial
  now := by decide +kernel

/-- One tick lands the whole budget. -/
theorem budget_kept_once : Within (reached plain mute (fresh onceStored []) [] (tickOf (lucky 0))).landed once :=
  budget_kept plain mute onceStored [] affordable_once [] (tickOf (lucky 0)) told_once once (by simp [onceStored])

/-- The process is stopped right after the swap has landed; the next tick is told that its key
is taken, and the one after that swaps again. -/
theorem budget_lost : ¬∀ (deps : GatewayExecutorDeps) (e : StrategyExecutor) (stored : Strategies) (claims : List String)
    (ended : List (List Luck)) (current : List Luck),
    ∀ row ∈ stored.rows, Within (reached deps e (fresh stored claims) ended current).landed row := by
  intro all
  have within := all plain mute onceStored [] [List.replicate 7 (lucky 0),tickOf (lucky 0)] (tickOf (lucky 10000000000))
    once (by simp [onceStored])
  have spent : spentOn "dca" (reached plain mute (fresh onceStored []) [List.replicate 7 (lucky 0),tickOf (lucky 0)]
      (tickOf (lucky 10000000000))).landed = 2000000000 := by decide +kernel
  have budget : worth (total once.params) = 1 := by decide +kernel
  have positive : 0 < total once.params := by decide +kernel
  have paid := within positive
  rw [show once.id = "dca" from rfl,spent,budget] at paid
  norm_num [SOL_DECIMALS] at paid

end Once

end RatifyOs.Strategy
