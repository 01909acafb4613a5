import RatifyOs.Perps.Drift

/-! What the readers of the positions make of an account. -/
namespace RatifyOs.Perps
open Data Data.Result

/-- What the SDK has shown: the account's positions and the market accounts. -/
structure Shown where
  client : DriftClient
  user : DriftUser
  positions : List DriftPerpPosition
  accounts : List DriftPerpMarketAccount

structure Shows (venue : DriftVenue) (subAccountId : ℕ) (s : Shown) : Prop where
  ready : venue.client = some s.client
  user : s.client.getUser subAccountId = .ok s.user
  positions : s.user.getUserAccount = .ok s.positions
  accounts : s.client.getPerpMarketAccounts = .ok s.accounts

/-- A position that is not known to be empty. -/
def Held (raw : DriftPerpPosition) : Prop := bnToBigInt raw.baseAssetAmount ≠ some 0

instance (raw : DriftPerpPosition) : Decidable (Held raw) := inferInstanceAs (Decidable (¬_))

section Reading
variable (locale : Locale)

namespace Shown
variable (s : Shown)

def markets : List PerpMarket := s.accounts.filterMap (toPerpMarket locale)

def marketAt (index : ℕ) : Option PerpMarket := (s.markets locale).find? fun m => m.venueMarketIndex = index

/-- A market account has this index and this name, whether or not it can be converted. -/
def Named (index : ℕ) (symbol : String) : Prop :=
  ∃ account ∈ s.accounts, account.marketIndex = index ∧ decodeMarketName locale account.name = some symbol

instance (index : ℕ) (symbol : String) : Decidable (s.Named locale index symbol) :=
  inferInstanceAs (Decidable (∃ account ∈ s.accounts, _ ∧ _))

/-- What the account holds in the markets of that name. -/
def heldIn (symbol : String) : List DriftPerpPosition :=
  s.positions.filter fun raw => Held raw ∧ s.Named locale raw.marketIndex symbol

/-- The oracle's answer is an integer and a positive price. -/
def Priced (index : ℕ) : Prop :=
  ∃ price priceUnits markPrice, s.client.getOracleDataForPerpMarket index = .ok price ∧
    bnToBigInt price = some priceUnits ∧ priceFrom price = some markPrice ∧ ¬markPrice ≤ 0

/-- The size can be read, the market is one that can be converted, and it has a price. -/
def Reportable (raw : DriftPerpPosition) (symbol : String) : Prop :=
  (bnToBigInt raw.baseAssetAmount).isSome ∧ (s.marketAt locale raw.marketIndex).map (·.symbol) = some symbol ∧
    s.Priced raw.marketIndex

/-- The oracle throws for a position in a market that can be converted. -/
def Throws (raw : DriftPerpPosition) : Prop :=
  Held raw ∧ (bnToBigInt raw.baseAssetAmount).isSome ∧ (s.marketAt locale raw.marketIndex).isSome ∧
    ∃ e, s.client.getOracleDataForPerpMarket raw.marketIndex = .error e

/-- The absolute notional at the oracle's price, which is 0 where there is none. -/
def notionalOf (raw : DriftPerpPosition) : ℤ :=
  match bnToBigInt raw.baseAssetAmount,(safe (s.client.getOracleDataForPerpMarket raw.marketIndex)).bind bnToBigInt with
  | some signed,some priceUnits => |notionalQuoteUnits signed priceUnits|
  | _,_ => 0

end Shown

/-- The base is that of the one position there is, and 0 where there is none. -/
def Exact (held : List DriftPerpPosition) (base : ℤ) : Prop :=
  held = [] ∧ base = 0 ∨ ∃ raw, held = [raw] ∧ bnToBigInt raw.baseAssetAmount = some base

/-- Every nonzero position is in the count and in the sum. -/
def Counts (s : Shown) (e : PortfolioExposure) : Prop :=
  e.openPositions = (s.positions.filter Held).length ∧
    e.notionalByBucket .usdc = ((s.positions.filter Held).map s.notionalOf).sum

/-- The venue is not connected, or the SDK throws. -/
def Unreadable (venue : DriftVenue) (subAccountId : ℕ) : Prop :=
  ∀ s, Shows venue subAccountId s → ∃ raw ∈ s.positions, s.Throws locale raw

end Reading

section Position
variable {locale : Locale} {s : Shown} {raw : DriftPerpPosition} {p : PerpPosition}

theorem toPerpMarket_named {account : DriftPerpMarketAccount} {m : PerpMarket} (converted : toPerpMarket locale account = some m) :
    m.venueMarketIndex = account.marketIndex ∧ decodeMarketName locale account.name = some m.symbol := by
  simp only [toPerpMarket,bind,Option.bind_eq_some_iff] at converted
  obtain ⟨symbol,decoded,initial,-,maintenance,-,leverage,-,built⟩ := converted
  cases built
  exact ⟨rfl,decoded⟩

theorem Shown.marketAt_named {index : ℕ} {m : PerpMarket} (found : s.marketAt locale index = some m) :
    s.Named locale index m.symbol := by
  have inside := List.mem_of_find?_eq_some found
  have same := List.find?_some found
  obtain ⟨account,listed,converted⟩ := List.mem_filterMap.mp inside
  obtain ⟨index_eq,decoded⟩ := toPerpMarket_named converted
  exact ⟨account,listed,by simpa [index_eq] using same,decoded⟩

def Shown.position (locale : Locale) (s : Shown) (raw : DriftPerpPosition) : Except PerpsVenueError (Option PerpPosition) :=
  DriftVenue.position s.client s.user (s.markets locale) raw

theorem abs_splitSignedBase (signed : ℤ) : |(splitSignedBase signed).2| = |signed| := by
  unfold splitSignedBase
  split <;> simp

theorem signedBase_split (signed : ℤ) (symbol : String) (notional collateral : TokenAmount) :
    signedBase ⟨symbol,(splitSignedBase signed).1,(splitSignedBase signed).2,notional,collateral⟩ = signed := by
  unfold splitSignedBase
  split <;> simp [signedBase]

/-- The one step of the loop: what is left out, what is reported, and when it throws. -/
theorem Shown.position_spec (locale : Locale) (s : Shown) (raw : DriftPerpPosition) :
    (s.position locale raw = .ok none ∧ ∀ symbol, Held raw → ¬s.Reportable locale raw symbol) ∨
    (∃ p, s.position locale raw = .ok (some p) ∧ Held raw ∧ s.Reportable locale raw p.symbol ∧
      bnToBigInt raw.baseAssetAmount = some (signedBase p) ∧ p.collateral.mint = DRIFT_SETTLEMENT_MINT ∧
      p.notional.mint = DRIFT_SETTLEMENT_MINT ∧ |p.notional.amount| = s.notionalOf raw) ∨
    ((∃ e, s.position locale raw = .error e) ∧ s.Throws locale raw) := by
  unfold Shown.position DriftVenue.position
  cases read : bnToBigInt raw.baseAssetAmount with
  | none => exact .inl ⟨rfl,fun symbol _ ⟨readable,_⟩ => by simp [read] at readable⟩
  | some signed =>
    by_cases zero : signed = 0
    · refine .inl ⟨by simp [zero],fun symbol held => ?_⟩
      exact absurd (zero ▸ read) held
    have held : Held raw := by simpa [Held,read] using zero
    cases found : s.marketAt locale raw.marketIndex with
    | none =>
      refine .inl ⟨?_,fun symbol _ ⟨_,named,_⟩ => by simp [found] at named⟩
      rw [Shown.marketAt] at found
      simp [zero,found]
    | some market =>
      have found' := found
      rw [Shown.marketAt] at found'
      simp only [zero,found',if_false]
      cases asked : s.client.getOracleDataForPerpMarket raw.marketIndex with
      | error e => exact .inr (.inr ⟨⟨_,rfl⟩,held,by simp [read],by simp [found],e,asked⟩)
      | ok price =>
        have unpriced (bad : ¬s.Priced raw.marketIndex) (symbol : String) (_ : Held raw) : ¬s.Reportable locale raw symbol :=
          fun ⟨_,_,priced⟩ => bad priced
        cases units : bnToBigInt price with
        | none =>
          refine .inl ⟨by simp [call,units,bind,Except.bind,pure,Except.pure],unpriced ?_⟩
          rintro ⟨price',u,m,asked',units',-⟩
          simp_all
        | some priceUnits =>
          cases mark : priceFrom price with
          | none =>
            refine .inl ⟨by simp [call,units,mark,bind,Except.bind,pure,Except.pure],unpriced ?_⟩
            rintro ⟨price',u,m,asked',-,mark',-⟩
            simp_all
          | some markPrice =>
            by_cases low : markPrice ≤ Double.finite 0
            · refine .inl ⟨by simp [call,units,mark,low,bind,Except.bind,pure,Except.pure],unpriced ?_⟩
              rintro ⟨price',u,m,asked',-,mark',high⟩
              simp_all
            · refine .inr (.inl ⟨_,by simp [call,units,mark,low,bind,Except.bind,pure,Except.pure]; rfl,held,?_,?_,rfl,rfl,?_⟩)
              · exact ⟨by simp [read],by simp [found],price,priceUnits,markPrice,asked,units,mark,low⟩
              · exact congrArg some (signedBase_split signed _ _ _).symm
              · simp [quoteAmount,notionalOf,safe,read,asked,units,notionalQuoteUnits,abs_splitSignedBase,Except.toOption]

/-- What is reported of a position; nothing where the step throws. -/
def Shown.view (locale : Locale) (s : Shown) (raw : DriftPerpPosition) : Option PerpPosition :=
  match s.position locale raw with
  | .ok found => found
  | .error _ => none

theorem Shown.view_some {p : PerpPosition} (seen : s.view locale raw = some p) :
    Held raw ∧ s.Reportable locale raw p.symbol ∧ bnToBigInt raw.baseAssetAmount = some (signedBase p) ∧
      p.collateral.mint = DRIFT_SETTLEMENT_MINT ∧ p.notional.mint = DRIFT_SETTLEMENT_MINT ∧
        |p.notional.amount| = s.notionalOf raw := by
  unfold Shown.view at seen
  obtain ⟨left,-⟩ | ⟨q,reported,facts⟩ | ⟨⟨e,thrown⟩,-⟩ := s.position_spec locale raw
  · simp [left] at seen
  · rw [reported] at seen
    cases seen
    exact facts
  · simp [thrown] at seen

theorem Shown.view_reportable {symbol : String} (held : Held raw) (reportable : s.Reportable locale raw symbol) :
    ∃ p, s.view locale raw = some p ∧ p.symbol = symbol := by
  obtain ⟨-,left⟩ | ⟨p,reported,-,⟨-,named,-⟩,-⟩ | ⟨-,-,-,-,e,thrown⟩ := s.position_spec locale raw
  · exact absurd reportable (left symbol held)
  · refine ⟨p,by simp [view,reported],?_⟩
    exact Option.some.inj (named.symm.trans reportable.2.1)
  · obtain ⟨-,-,price,_,_,asked,-⟩ := reportable
    rw [thrown] at asked
    cases asked

theorem Shown.position_throws (throws : s.Throws locale raw) : ∃ e, s.position locale raw = .error e := by
  obtain ⟨held,readable,converted,e,asked⟩ := throws
  obtain ⟨signed,read⟩ := Option.isSome_iff_exists.mp readable
  obtain ⟨market,found⟩ := Option.isSome_iff_exists.mp converted
  have nonzero : signed ≠ 0 := by simpa [Held,read] using held
  rw [marketAt] at found
  refine ⟨⟨DRIFT_VENUE_ID,"getOracleDataForPerpMarket failed: " ++ e⟩,?_⟩
  simp [position,DriftVenue.position,read,found,asked,call,nonzero,bind,Except.bind]

theorem Shown.position_of_not_throws (silent : ¬s.Throws locale raw) : s.position locale raw = .ok (s.view locale raw) := by
  obtain ⟨left,-⟩ | ⟨q,reported,-⟩ | ⟨-,throws⟩ := s.position_spec locale raw
  · simp [view,left]
  · simp [view,reported]
  · exact absurd throws silent

/-- The loop throws where one of its steps does, and collects the reports otherwise. -/
theorem Shown.positions_cases (locale : Locale) (s : Shown) (raws : List DriftPerpPosition) :
    ((∃ raw ∈ raws, s.Throws locale raw) ∧ ∃ e, DriftVenue.positions s.client s.user (s.markets locale) raws = .error e) ∨
    ((∀ raw ∈ raws, ¬s.Throws locale raw) ∧
      DriftVenue.positions s.client s.user (s.markets locale) raws = .ok (raws.filterMap (s.view locale))) := by
  induction raws with
  | nil => exact .inr ⟨by simp,rfl⟩
  | cons raw raws ih =>
    by_cases throws : s.Throws locale raw
    · obtain ⟨e,thrown⟩ := position_throws throws
      refine .inl ⟨⟨raw,List.mem_cons_self,throws⟩,e,?_⟩
      rw [position] at thrown
      simp [DriftVenue.positions,thrown,bind,Except.bind]
    have step := position_of_not_throws throws
    rw [position] at step
    obtain ⟨⟨other,inside,other_throws⟩,e,thrown⟩ | ⟨silent,collected⟩ := ih
    · refine .inl ⟨⟨other,List.mem_cons_of_mem _ inside,other_throws⟩,e,?_⟩
      simp [DriftVenue.positions,step,thrown,bind,Except.bind]
    · refine .inr ⟨by simpa [throws] using silent,?_⟩
      cases seen : s.view locale raw <;>
        simp [DriftVenue.positions,step,collected,seen,bind,Except.bind,pure,Except.pure]

theorem getPositions_shown {venue : DriftVenue} {subAccountId : ℕ} (shows_ : Shows venue subAccountId s) :
    venue.getPositions locale subAccountId = DriftVenue.positions s.client s.user (s.markets locale) s.positions := by
  simp [DriftVenue.getPositions,DriftVenue.listMarkets,DriftVenue.ready,shows_.ready,shows_.user,shows_.positions,
    shows_.accounts,call,required,bind,Except.bind,pure,Except.pure,Shown.markets]

theorem call_eq_ok {α : Type} {result : Except String α} {what : String} {value : α} :
    call result what = .ok value ↔ result = .ok value := by
  cases result <;> simp [call]

theorem getPositions_cases (locale : Locale) (venue : DriftVenue) (subAccountId : ℕ) :
    (Unreadable locale venue subAccountId ∧ ∃ e, venue.getPositions locale subAccountId = .error e) ∨
    ∃ s, Shows venue subAccountId s ∧ (∀ raw ∈ s.positions, ¬s.Throws locale raw) ∧
      venue.getPositions locale subAccountId = .ok (s.positions.filterMap (s.view locale)) := by
  cases returned : venue.getPositions locale subAccountId with
  | error e =>
    refine .inl ⟨fun s shows_ => ?_,e,rfl⟩
    rw [getPositions_shown shows_] at returned
    obtain ⟨throws,-⟩ | ⟨-,collected⟩ := s.positions_cases locale s.positions
    · exact throws
    · rw [collected] at returned
      cases returned
  | ok reported =>
    have steps := returned
    simp only [DriftVenue.getPositions,DriftVenue.listMarkets,DriftVenue.ready,bind_eq_ok,required_eq_ok,call_eq_ok] at steps
    obtain ⟨client,ready,user,got,positions,account,markets,⟨client',ready',accounts,listed,-⟩,-⟩ := steps
    cases ready.symm.trans ready'
    refine .inr ⟨⟨client,user,positions,accounts⟩,⟨ready,got,account,listed⟩,?_⟩
    rw [getPositions_shown (s := ⟨client,user,positions,accounts⟩) ⟨ready,got,account,listed⟩] at returned
    obtain ⟨-,e,thrown⟩ | ⟨silent,collected⟩ := Shown.positions_cases locale ⟨client,user,positions,accounts⟩ positions
    · rw [thrown] at returned
      cases returned
    · rw [collected] at returned
      cases returned
      exact ⟨silent,rfl⟩

theorem Shows.unique {venue : DriftVenue} {subAccountId : ℕ} {s t : Shown} (shows_ : Shows venue subAccountId s)
    (shows' : Shows venue subAccountId t) : s = t := by
  obtain ⟨client,user,positions,accounts⟩ := s
  obtain ⟨client',user',positions',accounts'⟩ := t
  cases shows_.ready.symm.trans shows'.ready
  cases shows_.user.symm.trans shows'.user
  cases shows_.positions.symm.trans shows'.positions
  cases shows_.accounts.symm.trans shows'.accounts
  rfl

end Position

section Readers
variable {locale : Locale} {s : Shown}

/-- A report under a name is of a position that is held in a market of that name. -/
theorem Shown.view_heldIn {raw : DriftPerpPosition} {p : PerpPosition} (inside : raw ∈ s.positions)
    (seen : s.view locale raw = some p) : raw ∈ s.heldIn locale p.symbol := by
  obtain ⟨held,⟨-,named,-⟩,-⟩ := view_some seen
  obtain ⟨m,found,symbol⟩ := Option.map_eq_some_iff.mp named
  simp only [heldIn,List.mem_filter,decide_eq_true_eq]
  exact ⟨inside,held,symbol ▸ marketAt_named found⟩

theorem Shown.mem_heldIn {raw : DriftPerpPosition} {symbol : String} (inside : raw ∈ s.heldIn locale symbol) :
    raw ∈ s.positions ∧ Held raw := by
  simp only [heldIn,List.mem_filter,decide_eq_true_eq] at inside
  exact ⟨inside.1,inside.2.1⟩

/-- The base of the first report under a name, and 0 where there is none. -/
def baseIn (reports : List PerpPosition) (market : String) : ℤ :=
  match reports.find? fun p => p.symbol = market with
  | none => 0
  | some p => signedBase p

theorem baseIn_exact_iff (s : Shown) (market : String) :
    Exact (s.heldIn locale market) (baseIn (s.positions.filterMap (s.view locale)) market) ↔
      (s.heldIn locale market).length ≤ 1 ∧ ∀ raw ∈ s.heldIn locale market, s.Reportable locale raw market := by
  have found_held {p} (found : (s.positions.filterMap (s.view locale)).find? (fun p => p.symbol = market) = some p) :
      ∃ raw ∈ s.heldIn locale market, s.view locale raw = some p ∧ p.symbol = market := by
    obtain ⟨raw,inside,seen⟩ := List.mem_filterMap.mp (List.mem_of_find?_eq_some found)
    have named : p.symbol = market := by simpa using List.find?_some found
    exact ⟨raw,named ▸ Shown.view_heldIn inside seen,seen,named⟩
  have absent (none_ : (s.positions.filterMap (s.view locale)).find? (fun p => p.symbol = market) = none) {raw p}
      (inside : raw ∈ s.positions) (seen : s.view locale raw = some p) : p.symbol ≠ market := by
    simpa using List.find?_eq_none.mp none_ p (List.mem_filterMap.mpr ⟨raw,inside,seen⟩)
  unfold baseIn
  cases held : s.heldIn locale market with
  | nil =>
    cases found : (s.positions.filterMap (s.view locale)).find? fun p => p.symbol = market with
    | none => simp [Exact]
    | some p =>
      obtain ⟨raw,inside,-⟩ := found_held found
      simp [held] at inside
  | cons raw rest =>
    cases rest with
    | cons other rest => simp [Exact]
    | nil =>
      have inside : raw ∈ s.heldIn locale market := by simp [held]
      obtain ⟨listed,nonzero⟩ := Shown.mem_heldIn inside
      cases found : (s.positions.filterMap (s.view locale)).find? fun p => p.symbol = market with
      | none =>
        constructor
        · intro exact_
          simp [Exact] at exact_
          exact absurd exact_ nonzero
        · rintro ⟨-,reportable⟩
          obtain ⟨p,seen,named⟩ := Shown.view_reportable nonzero (reportable raw (by simp))
          exact absurd named (absent found listed seen)
      | some p =>
        obtain ⟨raw',inside',seen,named⟩ := found_held found
        obtain rfl : raw' = raw := by simpa [held] using inside'
        obtain ⟨-,reportable,base,-⟩ := Shown.view_some seen
        simp [Exact,base,named ▸ reportable]

theorem length_view_le (locale : Locale) (s : Shown) (raws : List DriftPerpPosition) :
    (raws.filterMap (s.view locale)).length ≤ (raws.filter Held).length := by
  induction raws with
  | nil => simp
  | cons raw raws ih =>
    cases seen : s.view locale raw with
    | none =>
      rw [List.filterMap_cons_none seen]
      exact ih.trans ((List.sublist_cons_self raw raws).filter _).length_le
    | some p => simpa [List.filterMap_cons_some seen,(Shown.view_some seen).1] using ih

/-- Only where every held position is reported are they all counted. -/
theorem length_view_iff (locale : Locale) (s : Shown) (raws : List DriftPerpPosition) :
    (raws.filterMap (s.view locale)).length = (raws.filter Held).length ↔
      ∀ raw ∈ raws, Held raw → (s.view locale raw).isSome := by
  induction raws with
  | nil => simp
  | cons raw raws ih =>
    cases seen : s.view locale raw with
    | some p => simpa [List.filterMap_cons_some seen,(Shown.view_some seen).1,seen] using ih
    | none =>
      have below := length_view_le locale s raws
      rw [List.filterMap_cons_none seen]
      by_cases held : Held raw
      · simp only [List.filter_cons,held,decide_true,if_true,List.length_cons,List.forall_mem_cons,seen]
        constructor
        · omega
        · intro ⟨counted,_⟩
          simp at counted
      · simpa [held] using ih

theorem sum_view {s : Shown} {raws : List DriftPerpPosition}
    (all : ∀ raw ∈ raws, Held raw → (s.view locale raw).isSome) :
    ((raws.filterMap (s.view locale)).map (notionalIn .usdc)).sum = ((raws.filter Held).map s.notionalOf).sum := by
  induction raws with
  | nil => rfl
  | cons raw raws ih =>
    obtain ⟨first,rest⟩ := List.forall_mem_cons.mp all
    cases seen : s.view locale raw with
    | none =>
      have empty : ¬Held raw := fun held => by simpa [seen] using first held
      simp [List.filterMap_cons_none seen,empty,ih rest]
    | some p =>
      obtain ⟨held,-,-,collateral,notional,amount⟩ := Shown.view_some seen
      have bucket : Kernel.quoteBucketFor DRIFT_SETTLEMENT_MINT = some .usdc := by decide
      simp [List.filterMap_cons_some seen,held,ih rest,notionalIn,collateral,notional,bucket,amount]

/-- The adapter denominates everything in an asset that has a bucket. -/
theorem view_not_stale (s : Shown) : (exposureFrom (s.positions.filterMap (s.view locale))).stale = false := by
  have bucketed : (s.positions.filterMap (s.view locale)).countP isUnbucketed = 0 := by
    rw [List.countP_eq_zero]
    intro p inside
    obtain ⟨raw,-,seen⟩ := List.mem_filterMap.mp inside
    obtain ⟨-,-,-,collateral,notional,-⟩ := Shown.view_some seen
    rw [isUnbucketed,collateral,notional]
    decide
  simp [exposureFrom,bucketed]

theorem counts_iff (s : Shown) : Counts s (exposureFrom (s.positions.filterMap (s.view locale))) ↔
    ∀ raw ∈ s.positions, Held raw → ∃ symbol, s.Reportable locale raw symbol := by
  have seen_iff {raw} (held : Held raw) : (s.view locale raw).isSome ↔ ∃ symbol, s.Reportable locale raw symbol := by
    constructor
    · intro seen
      obtain ⟨p,seen⟩ := Option.isSome_iff_exists.mp seen
      exact ⟨p.symbol,(Shown.view_some seen).2.1⟩
    · rintro ⟨symbol,reportable⟩
      obtain ⟨p,seen,-⟩ := Shown.view_reportable held reportable
      simp [seen]
  have all := length_view_iff locale s s.positions
  constructor
  · rintro ⟨count,-⟩ raw inside held
    exact (seen_iff held).mp (all.mp count raw inside held)
  · intro reportable
    have seen : ∀ raw ∈ s.positions, Held raw → (s.view locale raw).isSome :=
      fun raw inside held => (seen_iff held).mpr (reportable raw inside held)
    exact ⟨all.mpr seen,sum_view seen⟩

def ReadsExactly (locale : Locale) (venue : DriftVenue) (ref : PerpPositionRef) : Prop :=
  ∀ base, readPosition locale venue ref = .ok base →
    ∃ s, Shows venue ref.subAccountId s ∧ Exact (s.heldIn locale ref.market) base

/-- The exposure counts everything or is stale. -/
def CountsAll (locale : Locale) (venue : DriftVenue) (subAccountId : ℕ) : Prop :=
  (readSnapshot locale venue subAccountId).exposure.stale ∨
    ∃ s, Shows venue subAccountId s ∧ Counts s (readSnapshot locale venue subAccountId).exposure

theorem readPosition_returned {venue : DriftVenue} {ref : PerpPositionRef} {reports : List PerpPosition}
    (here : ref.venue = DRIFT_VENUE_ID) (returned : venue.getPositions locale ref.subAccountId = .ok reports) :
    readPosition locale venue ref = .ok (baseIn reports ref.market) := by
  unfold baseIn
  cases found : reports.find? (fun p => p.symbol = ref.market) <;>
    simp [readPosition,here,returned,found,reject,bind,Except.bind,pure,Except.pure]

theorem Unreadable.not_shown {venue : DriftVenue} {subAccountId : ℕ} (shows_ : Shows venue subAccountId s)
    (silent : ∀ raw ∈ s.positions, ¬s.Throws locale raw) : ¬Unreadable locale venue subAccountId := by
  intro unreadable
  obtain ⟨raw,inside,throws⟩ := unreadable s shows_
  exact silent raw inside throws

theorem Shows.exists_iff {venue : DriftVenue} {subAccountId : ℕ} (shows_ : Shows venue subAccountId s) (P : Shown → Prop) :
    (∃ t, Shows venue subAccountId t ∧ P t) ↔ P s := by
  constructor
  · rintro ⟨t,shows',holds⟩
    exact shows_.unique shows' ▸ holds
  · exact fun holds => ⟨s,shows_,holds⟩

theorem readsExactly_iff (locale : Locale) (venue : DriftVenue) (ref : PerpPositionRef) :
    ReadsExactly locale venue ref ↔ ref.venue ≠ DRIFT_VENUE_ID ∨ Unreadable locale venue ref.subAccountId ∨
      ∃ s, Shows venue ref.subAccountId s ∧ (s.heldIn locale ref.market).length ≤ 1 ∧
        ∀ raw ∈ s.heldIn locale ref.market, s.Reportable locale raw ref.market := by
  by_cases here : ref.venue = DRIFT_VENUE_ID
  swap
  · simp [ReadsExactly,readPosition,here]
  obtain ⟨unreadable,e,thrown⟩ | ⟨s,shows_,silent,returned⟩ := getPositions_cases locale venue ref.subAccountId
  · refine iff_of_true (fun base read => ?_) (.inr (.inl unreadable))
    simp [readPosition,thrown] at read
  · simp only [ReadsExactly,readPosition_returned here returned,Except.ok.injEq,forall_eq',shows_.exists_iff,here,
      Unreadable.not_shown shows_ silent,baseIn_exact_iff,ne_eq,not_true_eq_false,false_or]

theorem countsAll_iff (locale : Locale) (venue : DriftVenue) (subAccountId : ℕ) :
    CountsAll locale venue subAccountId ↔ Unreadable locale venue subAccountId ∨
      ∃ s, Shows venue subAccountId s ∧ ∀ raw ∈ s.positions, Held raw → ∃ symbol, s.Reportable locale raw symbol := by
  unfold CountsAll readSnapshot
  obtain ⟨unreadable,e,thrown⟩ | ⟨s,shows_,silent,returned⟩ := getPositions_cases locale venue subAccountId
  · exact iff_of_true (.inl (by simp [thrown,staleExposure])) (.inl unreadable)
  · simp [returned,shows_.exists_iff,Unreadable.not_shown shows_ silent,view_not_stale,counts_iff]

end Readers

/-- No exposure is dropped exactly where a read throws, or each position that is not empty
can be reported: those of the one market for the settlement, all of them for the exposure. -/
theorem exposure_kept_iff (locale : Locale) (venue : DriftVenue) (ref : PerpPositionRef) :
    (ReadsExactly locale venue ref ↔ ref.venue ≠ DRIFT_VENUE_ID ∨ Unreadable locale venue ref.subAccountId ∨
      ∃ s, Shows venue ref.subAccountId s ∧ (s.heldIn locale ref.market).length ≤ 1 ∧
        ∀ raw ∈ s.heldIn locale ref.market, s.Reportable locale raw ref.market) ∧
    (CountsAll locale venue ref.subAccountId ↔ Unreadable locale venue ref.subAccountId ∨
      ∃ s, Shows venue ref.subAccountId s ∧
        ∀ raw ∈ s.positions, Held raw → ∃ symbol, s.Reportable locale raw symbol) :=
  ⟨readsExactly_iff locale venue ref,countsAll_iff locale venue ref.subAccountId⟩

namespace Sample

def upper : Locale := ⟨id,id⟩

/-- Five SOL long in a market whose initial margin has been raised to the whole notional. -/
def delisting : Shown where
  client :=
    { getPerpMarketAccounts := .ok [⟨0,[83,79,76,45,80,69,82,80],10000,500⟩]
      getOracleDataForPerpMarket := fun _ => .ok (some "150000000")
      getUser := fun _ => .ok ⟨.ok [⟨0,some "5000000000"⟩],.ok (some "100000000")⟩
      getUserAccount := fun _ => .ok true }
  user := ⟨.ok [⟨0,some "5000000000"⟩],.ok (some "100000000")⟩
  positions := [⟨0,some "5000000000"⟩]
  accounts := [⟨0,[83,79,76,45,80,69,82,80],10000,500⟩]

def venue : DriftVenue := ⟨some delisting.client⟩

def solPerp : PerpPositionRef := ⟨"drift","SOL-PERP",0⟩

theorem delisting_shown : Shows venue 0 delisting := ⟨rfl,rfl,rfl,rfl⟩

/-- The position is read as flat, and the exposure as none. -/
theorem exposure_dropped : ¬(ReadsExactly upper venue solPerp ∧ CountsAll upper venue 0) := by
  rintro ⟨reads,-⟩
  obtain ⟨s,shows_,exact_⟩ := reads 0 (by decide +kernel)
  cases shows_.unique delisting_shown
  have held : delisting.heldIn upper "SOL-PERP" = [⟨0,some "5000000000"⟩] := by decide +kernel
  rw [show solPerp.market = "SOL-PERP" from rfl,held] at exact_
  have base : bnToBigInt (some "5000000000") = some 5000000000 := by decide +kernel
  simp [Exact,base] at exact_

end Sample

end RatifyOs.Perps
