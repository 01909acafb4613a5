import RatifyOs.Data.Run
import RatifyOs.Perps.Leverage

/-! What a run of admitted intents adds up to. -/
namespace RatifyOs.Perps
open Data Data.Result

section Venue
variable (locale : Locale)

def inMarket (symbol : String) (p : PerpPosition) : Bool :=
  locale.toUpperCase p.symbol = locale.toUpperCase (locale.trim symbol)

def positionIn (positions : List PerpPosition) (symbol : String) : Option PerpPosition :=
  positions.find? (inMarket locale symbol)

/-- What of the context does not come from the snapshot of the positions. -/
structure Surroundings where
  killSwitch : Bool
  executionEnabled : Bool
  accountInitialized : Bool
  dryRun : Bool

def guardContext (policy : PerpsPolicy) (s : Surroundings) (positions : List PerpPosition) (market : String) :
    PerpGuardContext where
  policy := policy
  killSwitch := s.killSwitch
  executionEnabled := s.executionEnabled
  exposure := exposureFrom positions
  position := positionIn locale positions market
  accountInitialized := s.accountInitialized
  dryRun := s.dryRun

/-! The venue fills an order exactly as it is stated. -/

def TokenAmount.plus (a : TokenAmount) (amount : ℤ) : TokenAmount := { a with amount := a.amount + amount }

def opened (i : PerpIntent) : PerpPosition :=
  ⟨i.perp.market,i.perp.side,i.perp.expectedBaseAmount,i.perp.notional,i.perp.collateral⟩

/-- An order on the held side adds to the position, one on the other side trades against it. -/
def filled (p : PerpPosition) (i : PerpIntent) : Option PerpPosition :=
  if p.side = i.perp.side then
    some { p with
      baseAmount := p.baseAmount + i.perp.expectedBaseAmount
      notional := p.notional.plus i.perp.notional.amount
      collateral := p.collateral.plus i.perp.collateral.amount }
  else if p.baseAmount = i.perp.expectedBaseAmount then none
  else
    some { p with
      side := if i.perp.expectedBaseAmount < p.baseAmount then p.side else i.perp.side
      baseAmount := |p.baseAmount - i.perp.expectedBaseAmount|
      notional := { p.notional with amount := |p.notional.amount - i.perp.notional.amount| }
      collateral := p.collateral.plus i.perp.collateral.amount }

def fill (i : PerpIntent) : List PerpPosition → List PerpPosition
  | [] => [opened i]
  | p :: positions =>
    if inMarket locale i.perp.market p then (filled p i).toList ++ positions else p :: fill i positions

def accepts (policy : PerpsPolicy) (positions : List PerpPosition) (a : PerpIntent × Surroundings) : Prop :=
  perpGuards locale a.1 (guardContext locale policy a.2 positions a.1.perp.market) = .ok ()

instance (policy : PerpsPolicy) (positions : List PerpPosition) (a : PerpIntent × Surroundings) :
    Decidable (accepts locale policy positions a) := inferInstanceAs (Decidable (_ = _))

/-- An intent is evaluated on a fresh snapshot and filled before the next one. -/
def step (policy : PerpsPolicy) (positions : List PerpPosition) (a : PerpIntent × Surroundings) :
    List PerpPosition :=
  if accepts locale policy positions a then fill locale a.1 positions else positions

/-- A position is denominated in one bucket and within the caps of that bucket. -/
def Capped (policy : PerpsPolicy) (p : PerpPosition) : Prop :=
  ∃ bucket, Kernel.quoteBucketFor p.notional.mint = some bucket ∧
    Kernel.quoteBucketFor p.collateral.mint = some bucket ∧
    0 ≤ p.notional.amount ∧ p.notional.amount ≤ (capsFor policy bucket).maxNotionalPerPosition ∧
    0 ≤ p.collateral.amount ∧ p.collateral.amount ≤ (capsFor policy bucket).maxCollateralPerPosition

structure WithinCaps (policy : PerpsPolicy) (positions : List PerpPosition) : Prop where
  each : ∀ p ∈ positions, Capped policy p
  total : ∀ bucket, (positions.map (notionalIn bucket)).sum ≤ (capsFor policy bucket).maxPortfolioNotional
  count : Double.finite positions.length ≤ policy.maxOpenPositions

/-- Where the market is already held: on the same side, in the same asset, and with room
for what is added. -/
def Room (policy : PerpsPolicy) (positions : List PerpPosition) (i : PerpIntent) : Prop :=
  ∀ p, positionIn locale positions i.perp.market = some p →
    p.side = i.perp.side ∧ Kernel.quoteBucketFor p.notional.mint = bucketOf i ∧
    ∀ bucket, bucketOf i = some bucket →
      p.notional.amount + i.perp.notional.amount ≤ (capsFor policy bucket).maxNotionalPerPosition ∧
      p.collateral.amount + i.perp.collateral.amount ≤ (capsFor policy bucket).maxCollateralPerPosition

/-- A position limit that can be reached by counting. -/
def Whole (x : Double) : Prop := x = .infinite false ∨ ∃ n : ℤ, x = .finite n

theorem fill_cases (i : PerpIntent) (positions : List PerpPosition) :
    positionIn locale positions i.perp.market = none ∧ fill locale i positions = positions ++ [opened i] ∨
      ∃ before p after, positions = before ++ p :: after ∧ positionIn locale positions i.perp.market = some p ∧
        fill locale i positions = before ++ ((filled p i).toList ++ after) := by
  induction positions with
  | nil => exact .inl ⟨rfl,rfl⟩
  | cons p positions ih =>
    by_cases here : inMarket locale i.perp.market p
    · exact .inr ⟨[],p,positions,rfl,by simp [positionIn,here],by simp [fill,here]⟩
    · rcases ih with ⟨absent,appended⟩ | ⟨before,q,after,split,found,replaced⟩
      · refine .inl ⟨?_,?_⟩
        · simpa [positionIn,here] using absent
        · simp [fill,here,appended]
      · refine .inr ⟨p :: before,q,after,by simp [split],?_,?_⟩
        · simpa [positionIn,here] using found
        · simp [fill,here,replaced]

/-- What the guards have established of an opening intent that they accept. -/
structure Admitted (policy : PerpsPolicy) (positions : List PerpPosition) (i : PerpIntent)
    (bucket : Kernel.QuoteBucket) : Prop where
  bucketed : bucketOf i = some bucket
  asset : i.perp.notional.mint = i.perp.collateral.mint
  notional_nonneg : 0 ≤ i.perp.notional.amount
  collateral_nonneg : 0 ≤ i.perp.collateral.amount
  notional : i.perp.notional.amount ≤ (capsFor policy bucket).maxNotionalPerPosition
  collateral : i.perp.collateral.amount ≤ (capsFor policy bucket).maxCollateralPerPosition
  total : (positions.map (notionalIn bucket)).sum + i.perp.notional.amount ≤
    (capsFor policy bucket).maxPortfolioNotional
  slot : positionIn locale positions i.perp.market = none → ¬policy.maxOpenPositions ≤ .finite positions.length

theorem collateralWithinCap_pass {i : PerpIntent} {ctx : PerpGuardContext} {bucket : Kernel.QuoteBucket}
    (bucketed : bucketOf i = some bucket) (passed : collateralWithinCap i ctx = pass) :
    i.perp.collateral.amount ≤ (capsFor ctx.policy bucket).maxCollateralPerPosition := by
  by_contra above
  have nonzero : i.perp.collateral.amount ≠ 0 := by omega
  simp [collateralWithinCap,bucketed,nonzero,lt_of_not_ge above,v,pass] at passed

theorem portfolioWithinCap_pass {i : PerpIntent} {ctx : PerpGuardContext} {bucket : Kernel.QuoteBucket}
    (opening : i.kind.isOpeningKind) (bucketed : bucketOf i = some bucket)
    (passed : portfolioWithinCap i ctx = pass) :
    ctx.exposure.notionalByBucket bucket + i.perp.notional.amount ≤
      (capsFor ctx.policy bucket).maxPortfolioNotional := by
  unfold portfolioWithinCap at passed
  rw [if_neg (not_not.mpr opening)] at passed
  simp only [bucketed] at passed
  split at passed
  · simp [v,pass] at passed
  · cases reached : notionalFromCollateral i.perp.collateral.amount i.perp.leverage with
    | error e => simp [reached,bind,Except.bind,pass] at passed
    | ok derived =>
      have larger := le_max_left i.perp.notional.amount (derived.getD i.perp.notional.amount)
      by_contra above
      have over_ : ctx.exposure.notionalByBucket bucket +
          max i.perp.notional.amount (derived.getD i.perp.notional.amount) >
            (capsFor ctx.policy bucket).maxPortfolioNotional := by omega
      simp only [reached,bind,Except.bind,if_pos over_,v,pass,Except.ok.injEq,reduceCtorEq] at passed

theorem positionCountWithinCap_pass {i : PerpIntent} {ctx : PerpGuardContext} (opens : i.kind = .perpOpen)
    (absent : ctx.position = none) (passed : positionCountWithinCap i ctx = pass) :
    ¬ctx.policy.maxOpenPositions ≤ .finite ctx.exposure.openPositions := by
  intro full
  unfold positionCountWithinCap at passed
  rw [if_neg (by simp [opens])] at passed
  split at passed
  · simp [v,pass] at passed
  · simp [absent,full,v,pass] at passed

theorem increaseMatchesPosition_pass {i : PerpIntent} {ctx : PerpGuardContext} (increases : i.kind = .perpIncrease)
    (passed : increaseMatchesPosition i ctx = pass) : ctx.position ≠ none := by
  intro absent
  simp [increaseMatchesPosition,increases,absent,v,pass] at passed

theorem accepts_admitted {policy : PerpsPolicy} {positions : List PerpPosition} {a : PerpIntent × Surroundings}
    (opening : a.1.kind.isOpeningKind) (ok : accepts locale policy positions a) :
    ∃ bucket, Admitted locale policy positions a.1 bucket := by
  obtain ⟨shape,rules⟩ := perpGuards_ok ok
  obtain ⟨_,nonneg,nonneg',asset⟩ := shape_leverage shape
  obtain ⟨bucket,bucketed⟩ := collateralCappable_pass (rules collateralCappable (by simp [PERP_RULES]))
  obtain ⟨derived,_,within⟩ :=
    notionalWithinCap_pass opening bucketed (rules notionalWithinCap (by simp [PERP_RULES]))
  refine ⟨bucket,bucketed,asset,nonneg',nonneg,(le_max_left _ _).trans within,?_,?_,?_⟩
  · exact collateralWithinCap_pass bucketed (rules collateralWithinCap (by simp [PERP_RULES]))
  · exact portfolioWithinCap_pass opening bucketed (rules portfolioWithinCap (by simp [PERP_RULES]))
  · intro absent
    cases kind : a.1.kind with
    | perpOpen => exact positionCountWithinCap_pass kind absent (rules positionCountWithinCap (by simp [PERP_RULES]))
    | perpIncrease =>
      have held := increaseMatchesPosition_pass kind (rules increaseMatchesPosition (by simp [PERP_RULES]))
      exact absurd absent held
    | perpReduce => simp [kind,PerpIntentKind.isOpeningKind] at opening
    | perpClose => simp [kind,PerpIntentKind.isOpeningKind] at opening

theorem notionalIn_of {p : PerpPosition} {bucket : Kernel.QuoteBucket}
    (notional : Kernel.quoteBucketFor p.notional.mint = some bucket)
    (collateral : Kernel.quoteBucketFor p.collateral.mint = some bucket) (nonneg : 0 ≤ p.notional.amount)
    (other : Kernel.QuoteBucket) : notionalIn other p = if bucket = other then p.notional.amount else 0 := by
  simp [notionalIn,notional,collateral,abs_of_nonneg nonneg]

theorem count_succ {n : ℕ} {most : Double} (whole : Whole most) (room : ¬most ≤ .finite n) :
    Double.finite (n + 1 : ℕ) ≤ most := by
  rcases whole with rfl | ⟨k,rfl⟩
  · rfl
  · rw [Double.finite_le,not_le] at room
    rw [Double.finite_le]
    have below : (n : ℤ) < k := by exact_mod_cast room
    exact_mod_cast (show ((n + 1 : ℕ) : ℤ) ≤ k by omega)

theorem fill_withinCaps {policy : PerpsPolicy} {positions : List PerpPosition} {i : PerpIntent}
    {bucket : Kernel.QuoteBucket} (whole : Whole policy.maxOpenPositions)
    (within : WithinCaps policy positions) (admitted : Admitted locale policy positions i bucket)
    (room : Room locale policy positions i) : WithinCaps policy (fill locale i positions) := by
  have bucketed : Kernel.quoteBucketFor i.perp.collateral.mint = some bucket := admitted.bucketed
  rcases fill_cases locale i positions with ⟨absent,appended⟩ | ⟨before,p,after,rfl,found,replaced⟩
  · have capped : Capped policy (opened i) :=
      ⟨bucket,by rw [opened,admitted.asset,bucketed],bucketed,admitted.notional_nonneg,admitted.notional,
        admitted.collateral_nonneg,admitted.collateral⟩
    rw [appended]
    refine ⟨?_,?_,?_⟩
    · intro q inside
      rcases List.mem_append.mp inside with old | new
      · exact within.each q old
      · rw [List.mem_singleton.mp new]
        exact capped
    · intro other
      have adds := notionalIn_of (p := opened i) (by rw [opened,admitted.asset,bucketed]) bucketed
        admitted.notional_nonneg other
      rw [List.map_append,List.sum_append,List.map_singleton,List.sum_singleton,adds]
      by_cases same : bucket = other
      · subst same
        rw [if_pos rfl]
        exact admitted.total
      · rw [if_neg same,add_zero]
        exact within.total other
    · rw [List.length_append,List.length_singleton]
      exact count_succ whole (admitted.slot absent)
  · obtain ⟨side,asset,space⟩ := room p found
    obtain ⟨held,notional,collateral,nonneg,_,nonneg',_⟩ := within.each p (by simp)
    have same : held = bucket := by
      rw [asset,admitted.bucketed] at notional
      exact (Option.some.inj notional).symm
    subst same
    obtain ⟨fits,fits'⟩ := space held admitted.bucketed
    have grown := admitted.notional_nonneg
    have grown' := admitted.collateral_nonneg
    rw [replaced,filled,if_pos side,Option.toList_some,List.singleton_append]
    refine ⟨?_,?_,?_⟩
    · intro q inside
      rcases List.mem_append.mp inside with old | later
      · exact within.each q (List.mem_append_left _ old)
      · rcases List.mem_cons.mp later with rfl | old
        · refine ⟨held,notional,collateral,?_,fits,?_,fits'⟩
          · exact add_nonneg nonneg grown
          · exact add_nonneg nonneg' grown'
        · exact within.each q (List.mem_append_right _ (List.mem_cons_of_mem _ old))
    · intro other
      have was := notionalIn_of notional collateral nonneg other
      have total := within.total other
      have bound := admitted.total
      simp only [List.map_append,List.map_cons,List.sum_append,List.sum_cons] at total bound ⊢
      let merged : PerpPosition := { p with
        baseAmount := p.baseAmount + i.perp.expectedBaseAmount
        notional := p.notional.plus i.perp.notional.amount
        collateral := p.collateral.plus i.perp.collateral.amount }
      have now : notionalIn other merged = _ := notionalIn_of (p := merged) notional collateral
        (add_nonneg nonneg grown) other
      rw [now]
      rw [was] at total
      rw [notionalIn_of notional collateral nonneg held,if_pos rfl] at bound
      by_cases here : held = other
      · subst here
        rw [if_pos rfl]
        simp only [merged,TokenAmount.plus]
        omega
      · rw [if_neg here] at total ⊢
        exact total
    · simpa using within.count

/-- After the fill the caps hold, and an accepted open did not trade against a held position. -/
def Upheld (policy : PerpsPolicy) (positions : List PerpPosition) (a : PerpIntent × Surroundings) : Prop :=
  accepts locale policy positions a →
    WithinCaps policy (fill locale a.1 positions) ∧
    (a.1.kind = .perpOpen → ∀ p, positionIn locale positions a.1.perp.market = some p → p.side = a.1.perp.side)

/-- What is accepted adds to the risk and finds room. -/
def FindsRoom (policy : PerpsPolicy) (positions : List PerpPosition) (a : PerpIntent × Surroundings) : Prop :=
  a.1.kind.isOpeningKind ∧ (accepts locale policy positions a → Room locale policy positions a.1)

theorem step_withinCaps {policy : PerpsPolicy} (whole : Whole policy.maxOpenPositions)
    (positions : List PerpPosition) (a : PerpIntent × Surroundings) (finds : FindsRoom locale policy positions a)
    (within : WithinCaps policy positions) :
    WithinCaps policy (step locale policy positions a) ∧ Upheld locale policy positions a := by
  have kept (ok : accepts locale policy positions a) : WithinCaps policy (fill locale a.1 positions) := by
    obtain ⟨bucket,admitted⟩ := accepts_admitted locale finds.1 ok
    exact fill_withinCaps locale whole within admitted (finds.2 ok)
  refine ⟨?_,fun ok => ⟨kept ok,fun _ p found => (finds.2 ok p found).1⟩⟩
  unfold step
  split
  · exact kept ‹_›
  · exact within

/-- The caps hold after every fill of every run whose accepted intents find room. -/
theorem caps_upheld (policy : PerpsPolicy) (positions : List PerpPosition) (as : List (PerpIntent × Surroundings))
    (whole : Whole policy.maxOpenPositions) (within : WithinCaps policy positions)
    (room : Run.Meets (step locale policy) (FindsRoom locale policy) positions as) :
    Run.Meets (step locale policy) (Upheld locale policy) positions as := by
  apply room.within _ _ within
  · intro positions a finds within
    exact (step_withinCaps locale whole positions a finds within).1
  · intro positions a finds within
    exact (step_withinCaps locale whole positions a finds within).2

end Venue

namespace Sample

def armed : Surroundings := ⟨false,true,true,false⟩

def order (kind : PerpIntentKind) (side : PerpSide) (collateral notional : ℤ) : PerpIntent × Surroundings :=
  (intent kind side collateral notional,armed)

def held (collateral notional : ℤ) : PerpPosition :=
  ⟨"SOL-PERP",.long,1000000000,usdc notional,usdc collateral⟩

theorem withinCaps_nil : WithinCaps policy [] := by
  refine ⟨by simp,fun bucket => ?_,by decide +kernel⟩
  simp

end Sample

open Sample in
/-- A second order at the cap doubles the position, and an open on the other side trades
against it. -/
theorem caps_not_upheld :
    ¬Run.Meets (step locale policy) (Upheld locale policy) []
        [order .perpOpen .long 200000000 600000000,order .perpIncrease .long 200000000 600000000] ∧
      ¬Run.Meets (step locale policy) (Upheld locale policy) []
        [order .perpOpen .long 200000000 600000000,order .perpOpen .short 100000000 300000000] := by
  have first : step locale policy [] (order .perpOpen .long 200000000 600000000) =
      [held 200000000 600000000] := by decide +kernel
  constructor
  · rintro ⟨_,second,_⟩
    rw [first] at second
    obtain ⟨within,_⟩ := second (by decide +kernel)
    obtain ⟨bucket,found,_,_,above,_⟩ := within.each
      ⟨"SOL-PERP",.long,2000000000,usdc 1200000000,usdc 400000000⟩ (by decide +kernel)
    cases bucket with
    | sol => simp [usdc,USDC_MINT,Kernel.quoteBucketFor,Kernel.solQuoteMints,Kernel.usdcQuoteMints] at found
    | usdc => exact absurd above (by decide +kernel)
  · rintro ⟨_,second,_⟩
    rw [first] at second
    obtain ⟨_,against⟩ := second (by decide +kernel)
    have same := against rfl (held 200000000 600000000) (by decide +kernel)
    cases same

open Sample in
theorem caps_upheld_twice :
    Run.Meets (step locale policy) (Upheld locale policy) []
      [order .perpOpen .long 100000000 300000000,order .perpIncrease .long 100000000 300000000] := by
  have first : step locale policy [] (order .perpOpen .long 100000000 300000000) =
      [held 100000000 300000000] := by decide +kernel
  apply caps_upheld locale policy [] _ (.inr ⟨3,rfl⟩) withinCaps_nil
  refine ⟨⟨rfl,fun _ p found => by cases found⟩,?_,trivial⟩
  rw [first]
  refine ⟨rfl,fun _ p found => ?_⟩
  have same : held 100000000 300000000 = p := by
    have here : positionIn locale [held 100000000 300000000] "SOL-PERP" = some (held 100000000 300000000) := by
      decide +kernel
    exact Option.some.inj (here.symm.trans found)
  subst same
  refine ⟨rfl,rfl,fun bucket bucketed => ?_⟩
  cases bucket with
  | sol => exact absurd bucketed (by decide +kernel)
  | usdc => exact ⟨by decide +kernel,by decide +kernel⟩

end RatifyOs.Perps
