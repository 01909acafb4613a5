import RatifyOs.Perps.Guards

/-! The liquidation gate over any numbers: over doubles it is the guard's own, over rationals it can
be asked what it promises. -/
namespace RatifyOs.Perps.Liquidation
open Data

/-- What the gate asks of a number beyond arithmetic. -/
class Reading (α : Type) where
  whole : ℕ → α
  isFinite : α → Bool
  floor : α → α
  abs : α → α

instance : Reading Double := ⟨fun n => .finite n,Double.isFinite,Double.floor,Double.abs⟩

instance : Reading ℚ := ⟨Nat.cast,fun _ => true,fun q => ⌊q⌋,fun q => |q|⟩

/-- What the gate reads of an intent that opens. -/
structure Opening (α : Type) where
  side : PerpSide
  entryPrice : α
  leverage : α
  maintenanceMarginRatio : α
  venueLiquidationPrice : Option α

structure Limits (α : Type) where
  minLiquidationDistanceBps : α
  liquidationToleranceBps : α

structure Reconciled (α : Type) where
  liquidationPrice : Option α
  distanceBps : Option α
  source : LiquidationSource
  ambiguity : Option String
  disagreementBps : Option α
  disagrees : Bool

section Gate
variable {α : Type} [Add α] [Sub α] [Mul α] [Div α] [LT α] [LE α] [DecidableLT α] [DecidableLE α] [Reading α]
open Reading

def isUsablePrice (x : α) : Bool := isFinite x ∧ whole 0 < x

def modelLiquidationPrice (side : PerpSide) (entryPrice leverage maintenanceMarginRatio : α) : Option α :=
  let m := maintenanceMarginRatio
  if isUsablePrice entryPrice = false then none
  else if isFinite leverage = false ∨ leverage ≤ whole 0 then none
  else if isFinite m = false ∨ m < whole 0 ∨ whole 1 ≤ m then none
  else
    let price := match side with
      | .long => entryPrice * (whole 1 - whole 1 / leverage) / (whole 1 - m)
      | .short => entryPrice * (whole 1 + whole 1 / leverage) / (whole 1 + m)
    if isFinite price = false ∨ price < whole 0 then none else some price

def liquidationDistanceBps (side : PerpSide) (referencePrice liquidationPrice : α) : Option α :=
  if isUsablePrice referencePrice = false then none
  else if isFinite liquidationPrice = false ∨ liquidationPrice < whole 0 then none
  else
    let signedGap := match side with
      | .long => referencePrice - liquidationPrice
      | .short => liquidationPrice - referencePrice
    if signedGap < whole 0 then none
    else
      let bps := signedGap / referencePrice * whole 10000
      if isFinite bps then some (floor bps) else none

def reconcileLiquidation (side : PerpSide) (referencePrice : α) (venuePrice modelPrice : Option α) (toleranceBps : α) :
    Reconciled α :=
  let none_ (why : String) : Reconciled α := ⟨none,none,.model,some why,none,false⟩
  if isUsablePrice referencePrice = false then none_ "reference price is missing or non-positive"
  else
    match venuePrice.bind (liquidationDistanceBps side referencePrice),
      modelPrice.bind (liquidationDistanceBps side referencePrice) with
    | none,none => none_ "neither the venue nor the model produced a usable liquidation price"
    | some venueDist,some modelDist =>
      let disagreementBps := abs (venueDist - modelDist)
      let disagrees := decide (toleranceBps < disagreementBps)
      if venueDist ≤ modelDist then ⟨venuePrice,some venueDist,.venue,none,some disagreementBps,disagrees⟩
      else ⟨modelPrice,some modelDist,.model,none,some disagreementBps,disagrees⟩
    | some venueDist,none => ⟨venuePrice,some venueDist,.venue,none,none,false⟩
    | none,some modelDist => ⟨modelPrice,some modelDist,.model,none,none,false⟩

/-- The violation that the gate reports, if any. -/
def liquidationDistanceOk (p : Opening α) (policy : Limits α) : Option PerpGuardCode :=
  let model := modelLiquidationPrice p.side p.entryPrice p.leverage p.maintenanceMarginRatio
  let reconciled := reconcileLiquidation p.side p.entryPrice p.venueLiquidationPrice model policy.liquidationToleranceBps
  match reconciled.ambiguity,reconciled.distanceBps with
  | none,some distanceBps => if distanceBps < policy.minLiquidationDistanceBps then some .liquidationTooClose else none
  | _,_ => some .liquidationUnknown

end Gate

section Doubles

def openingOf (i : PerpIntent) : Opening Double where
  side := i.perp.side
  entryPrice := i.perp.entryPrice
  leverage := i.perp.leverage
  maintenanceMarginRatio := i.perp.maintenanceMarginRatio
  venueLiquidationPrice := i.perp.venueLiquidationPrice

def limitsOf (policy : PerpsPolicy) : Limits Double := ⟨policy.minLiquidationDistanceBps,policy.liquidationToleranceBps⟩

theorem modelLiquidationPrice_double (side : PerpSide) (entryPrice leverage m : Double) :
    modelLiquidationPrice side entryPrice leverage m = Perps.modelLiquidationPrice side entryPrice leverage m := rfl

theorem reconcileLiquidation_double (side : PerpSide) (referencePrice : Double) (venuePrice modelPrice : Option Double)
    (toleranceBps : Double) :
    let gate := reconcileLiquidation side referencePrice venuePrice modelPrice toleranceBps
    let guard_ := Perps.reconcileLiquidation side referencePrice venuePrice modelPrice toleranceBps
    gate.ambiguity = guard_.ambiguity ∧ gate.distanceBps = guard_.distanceBps := by
  simp only [reconcileLiquidation,Perps.reconcileLiquidation]
  have same : liquidationDistanceBps side referencePrice = Perps.liquidationDistanceBps side referencePrice := rfl
  rw [same]
  split
  · rename_i unusable
    rw [if_pos (show Perps.isUsablePrice referencePrice = false from unusable)]
    exact ⟨rfl,rfl⟩
  · rename_i usable
    rw [if_neg (show ¬Perps.isUsablePrice referencePrice = false from usable)]
    cases venuePrice.bind (Perps.liquidationDistanceBps side referencePrice) with
    | none => cases modelPrice.bind (Perps.liquidationDistanceBps side referencePrice) <;> exact ⟨rfl,rfl⟩
    | some venueDist =>
      cases modelPrice.bind (Perps.liquidationDistanceBps side referencePrice) with
      | none => exact ⟨rfl,rfl⟩
      | some modelDist =>
        dsimp only
        split
        · exact ⟨rfl,rfl⟩
        · exact ⟨rfl,rfl⟩

/-- Over doubles the gate is the rule of the guards. -/
theorem liquidationDistanceOk_double (i : PerpIntent) (ctx : PerpGuardContext) :
    (Perps.liquidationDistanceOk i ctx).map (·.map (·.code)) =
      .ok (if i.kind.isOpeningKind then liquidationDistanceOk (openingOf i) (limitsOf ctx.policy) else none) := by
  by_cases opening : i.kind.isOpeningKind
  · obtain ⟨ambiguity,distance⟩ := reconcileLiquidation_double i.perp.side i.perp.entryPrice i.perp.venueLiquidationPrice
      (Perps.modelLiquidationPrice i.perp.side i.perp.entryPrice i.perp.leverage i.perp.maintenanceMarginRatio)
      ctx.policy.liquidationToleranceBps
    rw [if_pos opening]
    simp only [liquidationDistanceOk,openingOf,limitsOf,modelLiquidationPrice_double,ambiguity,distance]
    rw [Perps.liquidationDistanceOk,if_neg (not_not.mpr opening)]
    dsimp only
    generalize Perps.reconcileLiquidation _ _ _ _ _ = reconciled
    obtain ⟨price,distance,source,ambiguity,_,_⟩ := reconciled
    cases ambiguity with
    | some why => rfl
    | none =>
      cases distance with
      | none => rfl
      | some distance =>
        dsimp only
        split
        · rename_i near
          exact congrArg Except.ok (if_pos near).symm
        · rename_i far
          exact congrArg Except.ok (if_neg far).symm
  · rw [if_neg opening,Perps.liquidationDistanceOk,if_pos opening]
    rfl

end Doubles

section Rationals
variable {p : Opening ℚ} {policy : Limits ℚ}

/-- How far a price is from the entry, on the losing side of it. -/
def gap (p : Opening ℚ) (price : ℚ) : ℚ :=
  match p.side with
  | .long => p.entryPrice - price
  | .short => price - p.entryPrice

def basisPoints (p : Opening ℚ) (price : ℚ) : ℚ := gap p price / p.entryPrice * 10000

def Usable (p : Opening ℚ) (price : ℚ) : Prop := 0 ≤ price ∧ 0 ≤ gap p price

def estimate (p : Opening ℚ) : ℚ :=
  match p.side with
  | .long => p.entryPrice * (1 - 1 / p.leverage) / (1 - p.maintenanceMarginRatio)
  | .short => p.entryPrice * (1 + 1 / p.leverage) / (1 + p.maintenanceMarginRatio)

def VenueUsable (p : Opening ℚ) : Prop := ∃ price, p.venueLiquidationPrice = some price ∧ Usable p price

/-- The model has a price, and the leverage leaves the margin that maintenance needs. -/
structure ModelUsable (p : Opening ℚ) : Prop where
  leverage : 0 < p.leverage
  ratio : 0 ≤ p.maintenanceMarginRatio ∧ p.maintenanceMarginRatio < 1
  least : p.side = .long → 1 ≤ p.leverage
  margin : p.maintenanceMarginRatio * p.leverage ≤ 1

instance (p : Opening ℚ) (price : ℚ) : Decidable (Usable p price) := inferInstanceAs (Decidable (_ ∧ _))

theorem finite_rat (q : ℚ) : ¬Reading.isFinite q = false := Bool.noConfusion

theorem isUsablePrice_iff {x : ℚ} : isUsablePrice x = true ↔ 0 < x := by
  rw [isUsablePrice,decide_eq_true_eq]
  exact ⟨fun both => both.2,fun positive => ⟨rfl,positive⟩⟩

theorem liquidationDistanceBps_eq (positive : 0 < p.entryPrice) (price : ℚ) :
    liquidationDistanceBps p.side p.entryPrice price = if Usable p price then some (⌊basisPoints p price⌋ : ℚ) else none := by
  have usable := isUsablePrice_iff.mpr positive
  unfold liquidationDistanceBps
  rw [if_neg (by simp [usable])]
  by_cases least : 0 ≤ price
  · rw [if_neg (by rintro (infinite | less); exacts [finite_rat _ infinite,absurd least (not_le.mpr less)])]
    by_cases within : 0 ≤ gap p price
    · rw [if_pos (show Usable p price from ⟨least,within⟩)]
      exact (if_neg (not_lt.mpr within)).trans (if_pos rfl)
    · rw [if_neg fun both : Usable p price => within both.2]
      exact if_pos (not_le.mp within)
  · rw [if_pos (.inr (not_le.mp least)),if_neg fun both : Usable p price => least both.1]

theorem modelLiquidationPrice_eq_some {price : ℚ} (positive : 0 < p.entryPrice) :
    modelLiquidationPrice p.side p.entryPrice p.leverage p.maintenanceMarginRatio = some price ↔
      0 < p.leverage ∧ (0 ≤ p.maintenanceMarginRatio ∧ p.maintenanceMarginRatio < 1) ∧ 0 ≤ estimate p ∧ estimate p = price := by
  have usable := isUsablePrice_iff.mpr positive
  unfold modelLiquidationPrice
  rw [if_neg (by simp [usable])]
  have leverage_bad : (Reading.isFinite p.leverage = false ∨ p.leverage ≤ Reading.whole 0) ↔ ¬0 < p.leverage := by
    rw [not_lt]
    exact ⟨fun bad => bad.resolve_left (finite_rat _),.inr⟩
  have ratio_bad : (Reading.isFinite p.maintenanceMarginRatio = false ∨ p.maintenanceMarginRatio < Reading.whole 0 ∨
      Reading.whole 1 ≤ p.maintenanceMarginRatio) ↔ ¬(0 ≤ p.maintenanceMarginRatio ∧ p.maintenanceMarginRatio < 1) := by
    rw [not_and_or,not_le,not_lt]
    exact ⟨fun bad => bad.resolve_left (finite_rat _),.inr⟩
  have price_bad : (Reading.isFinite (estimate p) = false ∨ estimate p < Reading.whole 0) ↔ ¬0 ≤ estimate p := by
    rw [not_le]
    exact ⟨fun bad => bad.resolve_left (finite_rat _),.inr⟩
  by_cases leverage : 0 < p.leverage
  · rw [if_neg (by rw [leverage_bad]; exact not_not.mpr leverage)]
    by_cases ratio : 0 ≤ p.maintenanceMarginRatio ∧ p.maintenanceMarginRatio < 1
    · rw [if_neg (by rw [ratio_bad]; exact not_not.mpr ratio)]
      change (if Reading.isFinite (estimate p) = false ∨ estimate p < Reading.whole 0 then none else some (estimate p)) = some price ↔ _
      by_cases least : 0 ≤ estimate p
      · rw [if_neg (by rw [price_bad]; exact not_not.mpr least),Option.some.injEq]
        exact ⟨fun same => ⟨leverage,ratio,least,same⟩,fun all => all.2.2.2⟩
      · rw [if_pos (price_bad.mpr least)]
        exact ⟨fun same => absurd same (Option.some_ne_none _).symm,fun all => absurd all.2.2.1 least⟩
    · rw [if_pos (ratio_bad.mpr ratio)]
      exact ⟨fun same => absurd same (Option.some_ne_none _).symm,fun all => absurd all.2.1 ratio⟩
  · rw [if_pos (leverage_bad.mpr leverage)]
    exact ⟨fun same => absurd same (Option.some_ne_none _).symm,fun all => absurd all.1 leverage⟩

def cushion (p : Opening ℚ) : ℚ :=
  match p.side with
  | .long => 1 - p.maintenanceMarginRatio
  | .short => 1 + p.maintenanceMarginRatio

theorem cushion_pos (ratio : 0 ≤ p.maintenanceMarginRatio ∧ p.maintenanceMarginRatio < 1) : 0 < cushion p := by
  unfold cushion
  cases p.side
  · dsimp only
    linarith
  · dsimp only
    linarith

/-- The model's distance is the margin above maintenance. -/
theorem gap_estimate (ratio : 0 ≤ p.maintenanceMarginRatio ∧ p.maintenanceMarginRatio < 1) :
    gap p (estimate p) = p.entryPrice * (1 / p.leverage - p.maintenanceMarginRatio) / cushion p := by
  have nonzero := (cushion_pos ratio).ne'
  rw [eq_div_iff nonzero]
  unfold gap estimate
  unfold cushion at nonzero ⊢
  cases known : p.side
  · rw [known] at nonzero
    dsimp only at nonzero ⊢
    rw [sub_mul,div_mul_cancel₀ _ nonzero]
    ring
  · rw [known] at nonzero
    dsimp only at nonzero ⊢
    rw [sub_mul,div_mul_cancel₀ _ nonzero]
    ring

theorem gap_estimate_nonneg (positive : 0 < p.entryPrice) (leverage : 0 < p.leverage)
    (ratio : 0 ≤ p.maintenanceMarginRatio ∧ p.maintenanceMarginRatio < 1) :
    0 ≤ gap p (estimate p) ↔ p.maintenanceMarginRatio * p.leverage ≤ 1 := by
  rw [gap_estimate ratio,le_div_iff₀ (cushion_pos ratio),zero_mul,mul_nonneg_iff_of_pos_left positive,sub_nonneg,
    le_div_iff₀ leverage]

theorem estimate_nonneg (positive : 0 < p.entryPrice) (leverage : 0 < p.leverage)
    (ratio : 0 ≤ p.maintenanceMarginRatio ∧ p.maintenanceMarginRatio < 1) : 0 ≤ estimate p ↔ (p.side = .long → 1 ≤ p.leverage) := by
  unfold estimate
  cases p.side
  · rw [le_div_iff₀ (by linarith),zero_mul,mul_nonneg_iff_of_pos_left positive,sub_nonneg,div_le_one leverage]
    exact ⟨fun least _ => least,fun least => least rfl⟩
  · have price : 0 ≤ p.entryPrice * (1 + 1 / p.leverage) / (1 + p.maintenanceMarginRatio) :=
      div_nonneg (by positivity) (by linarith)
    exact ⟨fun _ short => (by cases short),fun _ => price⟩

theorem modelUsable_iff (positive : 0 < p.entryPrice) : ModelUsable p ↔
    ∃ price, modelLiquidationPrice p.side p.entryPrice p.leverage p.maintenanceMarginRatio = some price ∧ Usable p price := by
  simp only [modelLiquidationPrice_eq_some positive]
  constructor
  · intro usable
    have least := (estimate_nonneg positive usable.leverage usable.ratio).mpr usable.least
    exact ⟨estimate p,⟨usable.leverage,usable.ratio,least,rfl⟩,least,
      (gap_estimate_nonneg positive usable.leverage usable.ratio).mpr usable.margin⟩
  · rintro ⟨_,⟨leverage,ratio,least,rfl⟩,_,within⟩
    exact ⟨leverage,ratio,(estimate_nonneg positive leverage ratio).mp least,(gap_estimate_nonneg positive leverage ratio).mp within⟩

theorem liquidationDistanceBps_eq_some (positive : 0 < p.entryPrice) {price d : ℚ} :
    liquidationDistanceBps p.side p.entryPrice price = some d ↔ Usable p price ∧ ⌊basisPoints p price⌋ = d := by
  rw [liquidationDistanceBps_eq positive]
  split
  · rename_i usable
    rw [Option.some.injEq]
    exact ⟨fun same => ⟨usable,same⟩,fun both => both.2⟩
  · rename_i unusable
    exact ⟨fun same => absurd same (Option.some_ne_none _).symm,fun both => absurd both.1 unusable⟩

theorem verdict_iff (positive : 0 < p.entryPrice) {venueDist modelDist : Option ℚ}
    (venue : p.venueLiquidationPrice.bind (liquidationDistanceBps p.side p.entryPrice) = venueDist)
    (model : (modelLiquidationPrice p.side p.entryPrice p.leverage p.maintenanceMarginRatio).bind
      (liquidationDistanceBps p.side p.entryPrice) = modelDist) :
    liquidationDistanceOk p policy = none ↔ (venueDist ≠ none ∨ modelDist ≠ none) ∧
      (∀ d, venueDist = some d → policy.minLiquidationDistanceBps ≤ d) ∧
      ∀ d, modelDist = some d → policy.minLiquidationDistanceBps ≤ d := by
  have near (d : ℚ) : (if d < policy.minLiquidationDistanceBps then some PerpGuardCode.liquidationTooClose else none) = none ↔
      policy.minLiquidationDistanceBps ≤ d := by
    rw [← not_lt,ite_eq_right_iff]
    exact ⟨fun never less => absurd (never less) (Option.some_ne_none _),fun far less => absurd less far⟩
  have usable := isUsablePrice_iff.mpr positive
  simp only [liquidationDistanceOk,reconcileLiquidation]
  rw [if_neg (by simp [usable]),venue,model]
  cases venueDist with
  | none =>
    cases modelDist with
    | none => simp
    | some modelDist => simp
  | some venueDist =>
    cases modelDist with
    | none => simp
    | some modelDist =>
      by_cases least : venueDist ≤ modelDist
      · simp only [if_pos least]
        rw [near venueDist]
        constructor
        · intro far
          refine ⟨.inl (Option.some_ne_none _),?_,?_⟩
          · rintro _ ⟨⟩
            exact far
          · rintro _ ⟨⟩
            exact far.trans least
        · intro all
          exact all.2.1 _ rfl
      · simp only [if_neg least]
        rw [near modelDist]
        constructor
        · intro far
          refine ⟨.inl (Option.some_ne_none _),?_,?_⟩
          · rintro _ ⟨⟩
            exact far.trans (not_le.mp least).le
          · rintro _ ⟨⟩
            exact far
        · intro all
          exact all.2.2 _ rfl

/-- The gate accepts where there is an estimate to use, and every such estimate is far enough. -/
theorem accepted_iff (positive : 0 < p.entryPrice) : liquidationDistanceOk p policy = none ↔
    (VenueUsable p ∨ ModelUsable p) ∧
    (∀ price, p.venueLiquidationPrice = some price → Usable p price → policy.minLiquidationDistanceBps ≤ ⌊basisPoints p price⌋) ∧
    (ModelUsable p → policy.minLiquidationDistanceBps ≤ ⌊basisPoints p (estimate p)⌋) := by
  rw [verdict_iff positive rfl rfl]
  simp only [Option.ne_none_iff_exists',Option.bind_eq_some_iff,liquidationDistanceBps_eq_some positive]
  have model (d : ℚ) : (∃ price, modelLiquidationPrice p.side p.entryPrice p.leverage p.maintenanceMarginRatio = some price ∧
      Usable p price ∧ ⌊basisPoints p price⌋ = d) ↔ ModelUsable p ∧ ⌊basisPoints p (estimate p)⌋ = d := by
    rw [modelUsable_iff positive]
    constructor
    · rintro ⟨price,known,usable,rfl⟩
      obtain ⟨_,_,_,rfl⟩ := (modelLiquidationPrice_eq_some positive).mp known
      exact ⟨⟨_,known,usable⟩,rfl⟩
    · rintro ⟨⟨price,known,usable⟩,rfl⟩
      obtain ⟨_,_,_,rfl⟩ := (modelLiquidationPrice_eq_some positive).mp known
      exact ⟨_,known,usable,rfl⟩
  simp only [model]
  apply and_congr
  · apply or_congr
    · exact ⟨fun ⟨_,price,known,usable,_⟩ => ⟨price,known,usable⟩,fun ⟨price,known,usable⟩ => ⟨_,price,known,usable,rfl⟩⟩
    · exact ⟨fun ⟨_,usable,_⟩ => usable,fun usable => ⟨_,usable,rfl⟩⟩
  · apply and_congr
    · constructor
      · intro far price known usable
        exact far _ ⟨price,known,usable,rfl⟩
      · rintro far _ ⟨price,known,usable,rfl⟩
        exact far price known usable
    · constructor
      · intro far usable
        exact far _ ⟨usable,rfl⟩
      · rintro far _ ⟨usable,rfl⟩
        exact far usable

theorem refused_of_nonpos (nonpos : ¬0 < p.entryPrice) : liquidationDistanceOk p policy ≠ none := by
  have unusable : isUsablePrice p.entryPrice = false := by
    rw [← Bool.not_eq_true,isUsablePrice_iff]
    exact nonpos
  simp only [liquidationDistanceOk,reconcileLiquidation]
  rw [if_pos unusable]
  exact Option.some_ne_none _

/-- On the losing side of the entry, at the floor of the policy or beyond it. -/
def Away (p : Opening ℚ) (policy : Limits ℚ) (price : ℚ) : Prop :=
  0 ≤ gap p price ∧ policy.minLiquidationDistanceBps ≤ basisPoints p price

/-- Farther from the entry on the same side of it. -/
def Farther (entry near far : ℚ) : Prop := far < near ∧ near ≤ entry ∨ entry ≤ near ∧ near < far

/-- What acceptance promises: both prices are away, and less risk is accepted too. -/
structure Promises (p : Opening ℚ) (policy : Limits ℚ) : Prop where
  away : ∀ venue, p.venueLiquidationPrice = some venue → Away p policy venue ∧
    ∃ model, modelLiquidationPrice p.side p.entryPrice p.leverage p.maintenanceMarginRatio = some model ∧ Away p policy model
  lower : ∀ leverage, 0 < leverage → leverage < p.leverage → liquidationDistanceOk { p with leverage } policy = none
  farther : ∀ near far, p.venueLiquidationPrice = some near → Farther p.entryPrice near far →
    liquidationDistanceOk { p with venueLiquidationPrice := some far } policy = none

/-- Both estimates can be used, or neither, or the only one is too near; a short that the venue says
nothing of is judged on the model. -/
def Judged (p : Opening ℚ) (policy : Limits ℚ) : Prop :=
  p.entryPrice ≤ 0 ∨ (VenueUsable p ↔ ModelUsable p) ∨ p.side = .short ∧ p.venueLiquidationPrice = none ∨
    (∃ venue, p.venueLiquidationPrice = some venue ∧ Usable p venue ∧ ⌊basisPoints p venue⌋ < policy.minLiquidationDistanceBps) ∨
    (ModelUsable p ∧ ⌊basisPoints p (estimate p)⌋ < policy.minLiquidationDistanceBps)

theorem away_of_floor {price : ℚ} (within : 0 ≤ gap p price) (far : policy.minLiquidationDistanceBps ≤ ⌊basisPoints p price⌋) :
    Away p policy price := ⟨within,far.trans (Int.floor_le _)⟩

theorem basisPoints_mono (positive : 0 < p.entryPrice) {q : Opening ℚ} (entry : q.entryPrice = p.entryPrice) {a b : ℚ}
    (less : gap p a ≤ gap q b) : (⌊basisPoints p a⌋ : ℚ) ≤ ⌊basisPoints q b⌋ := by
  have le : basisPoints p a ≤ basisPoints q b := by
    rw [basisPoints,basisPoints,entry]
    gcongr
  exact_mod_cast Int.floor_mono le

theorem gap_estimate_mono (positive : 0 < p.entryPrice) {leverage : ℚ} (some_ : 0 < leverage) (less : leverage < p.leverage)
    (ratio : 0 ≤ p.maintenanceMarginRatio ∧ p.maintenanceMarginRatio < 1) :
    gap p (estimate p) ≤ gap { p with leverage } (estimate { p with leverage }) := by
  have inverse : 1 / p.leverage ≤ 1 / leverage := one_div_le_one_div_of_le some_ less.le
  rw [gap_estimate ratio,gap_estimate (p := { p with leverage }) ratio]
  have below : 0 < cushion p := cushion_pos ratio
  change _ ≤ p.entryPrice * (1 / leverage - p.maintenanceMarginRatio) / cushion p
  gcongr

theorem estimate_far_mono (positive : 0 < p.entryPrice) {leverage : ℚ} (some_ : 0 < leverage) (less : leverage < p.leverage)
    (ratio : 0 ≤ p.maintenanceMarginRatio ∧ p.maintenanceMarginRatio < 1)
    (far : policy.minLiquidationDistanceBps ≤ ⌊basisPoints p (estimate p)⌋) :
    policy.minLiquidationDistanceBps ≤ ⌊basisPoints { p with leverage } (estimate { p with leverage })⌋ := by
  have mono := gap_estimate_mono positive some_ less ratio
  have le := basisPoints_mono positive (q := { p with leverage }) rfl mono
  exact far.trans le

/-- With both estimates in use, neither less leverage nor a farther venue can hide the other. -/
theorem promises_of_both (positive : 0 < p.entryPrice) (model : ModelUsable p)
    (venueFar : ∀ price, p.venueLiquidationPrice = some price → Usable p price → policy.minLiquidationDistanceBps ≤ ⌊basisPoints p price⌋)
    (modelFar : policy.minLiquidationDistanceBps ≤ ⌊basisPoints p (estimate p)⌋) (venue : VenueUsable p) : Promises p policy := by
  obtain ⟨near,known,usable⟩ := venue
  have least := (estimate_nonneg positive model.leverage model.ratio).mpr model.least
  have within := (gap_estimate_nonneg positive model.leverage model.ratio).mpr model.margin
  constructor
  · intro v same
    rw [known,Option.some.injEq] at same
    subst same
    have price := (modelLiquidationPrice_eq_some positive).mpr ⟨model.leverage,model.ratio,least,rfl⟩
    exact ⟨away_of_floor usable.2 (venueFar _ known usable),_,price,away_of_floor within modelFar⟩
  · intro leverage some_ less
    refine (accepted_iff (p := { p with leverage }) positive).mpr ⟨.inl ⟨near,known,usable⟩,venueFar,fun _ => ?_⟩
    exact estimate_far_mono positive some_ less model.ratio modelFar
  · intro near' far same farther
    rw [known,Option.some.injEq] at same
    subst same
    refine (accepted_iff (p := { p with venueLiquidationPrice := some far }) positive).mpr
      ⟨.inr ⟨model.leverage,model.ratio,model.least,model.margin⟩,?_,fun _ => modelFar⟩
    rintro _ ⟨⟩ counts
    apply (venueFar near known usable).trans (basisPoints_mono positive rfl _)
    have within := usable.2
    have within' : 0 ≤ gap p far := counts.2
    change gap p near ≤ gap p far
    unfold gap at within within' ⊢
    unfold Farther at farther
    cases side : p.side
    · rw [side] at within within'
      dsimp only at within within' ⊢
      rcases farther with ⟨_,_⟩ | ⟨_,_⟩ <;> linarith
    · rw [side] at within within'
      dsimp only at within within' ⊢
      rcases farther with ⟨_,_⟩ | ⟨_,_⟩ <;> linarith

/-- Less leverage keeps the model of a short in use. -/
theorem promises_of_short (positive : 0 < p.entryPrice) (short : p.side = .short) (silent : p.venueLiquidationPrice = none)
    (model : ModelUsable p) (modelFar : policy.minLiquidationDistanceBps ≤ ⌊basisPoints p (estimate p)⌋) : Promises p policy := by
  constructor
  · intro venue known
    rw [silent] at known
    cases known
  · intro leverage some_ less
    have margin : p.maintenanceMarginRatio * leverage ≤ 1 :=
      (mul_le_mul_of_nonneg_left less.le model.ratio.1).trans model.margin
    have usable : ModelUsable { p with leverage } :=
      ⟨some_,model.ratio,fun long => absurd (short.symm.trans long) (by decide),margin⟩
    refine (accepted_iff (p := { p with leverage }) positive).mpr ⟨.inr usable,?_,fun _ => ?_⟩
    · intro price known
      rw [show p.venueLiquidationPrice = some price from known] at silent
      cases silent
    · exact estimate_far_mono positive some_ less model.ratio modelFar
  · intro near far known
    rw [silent] at known
    cases known

/-- An estimate that decides alone, and accepts, breaks a promise. -/
theorem not_promises_of_venue (positive : 0 < p.entryPrice) (venue : VenueUsable p) (model : ¬ModelUsable p) :
    ¬Promises p policy := by
  intro promises
  obtain ⟨price,known,_⟩ := venue
  obtain ⟨_,estimate_,computed,within,_⟩ := promises.away price known
  obtain ⟨_,_,least,rfl⟩ := (modelLiquidationPrice_eq_some positive).mp computed
  exact model ((modelUsable_iff positive).mpr ⟨_,computed,least,within⟩)

theorem not_promises_of_model (positive : 0 < p.entryPrice) (venue : ¬VenueUsable p) (model : ModelUsable p)
    (other : ¬(p.side = .short ∧ p.venueLiquidationPrice = none)) : ¬Promises p policy := by
  intro promises
  cases side : p.side with
  | long =>
    have half : (1 / 2 : ℚ) < p.leverage := lt_of_lt_of_le (by norm_num) (model.least side)
    have accepted := promises.lower (1 / 2) (by norm_num) half
    obtain ⟨some_,_⟩ := (accepted_iff (p := { p with leverage := 1 / 2 }) positive).mp accepted
    rcases some_ with ⟨price,known,usable⟩ | usable
    · exact venue ⟨price,known,usable⟩
    · exact absurd (usable.least side) (by norm_num)
  | short =>
    cases known : p.venueLiquidationPrice with
    | none => exact other ⟨side,known⟩
    | some price =>
      obtain ⟨⟨within,_⟩,_⟩ := promises.away price known
      have least : 0 ≤ price := by
        have apart := within
        rw [gap,side] at apart
        dsimp only at apart
        linarith
      exact venue ⟨price,known,least,within⟩

/-- For every opening intent and policy, acceptance keeps its promises exactly where it is not left to
one estimate alone. -/
theorem liquidation_promises_iff (p : Opening ℚ) (policy : Limits ℚ) :
    (liquidationDistanceOk p policy = none → Promises p policy) ↔ Judged p policy := by
  by_cases positive : 0 < p.entryPrice
  · constructor
    · intro promises
      by_contra unjudged
      simp only [Judged,not_or,not_exists,not_and,not_lt] at unjudged
      obtain ⟨_,differ,other,venueFar,modelFar⟩ := unjudged
      have accepted (some_ : VenueUsable p ∨ ModelUsable p) : liquidationDistanceOk p policy = none :=
        (accepted_iff positive).mpr ⟨some_,venueFar,modelFar⟩
      by_cases venue : VenueUsable p
      · have model : ¬ModelUsable p := fun model => differ ⟨fun _ => model,fun _ => venue⟩
        exact not_promises_of_venue positive venue model (promises (accepted (.inl venue)))
      · have model : ModelUsable p := by
          by_contra model
          exact differ ⟨fun usable => absurd usable venue,fun usable => absurd usable model⟩
        exact not_promises_of_model positive venue model (fun both => other both.1 both.2) (promises (accepted (.inr model)))
    · intro judged accepted
      obtain ⟨some_,venueFar,modelFar⟩ := (accepted_iff positive).mp accepted
      rcases judged with nonpos | same | ⟨short,silent⟩ | ⟨price,known,usable,near⟩ | ⟨usable,near⟩
      · exact absurd positive (not_lt.mpr nonpos)
      · have venue : VenueUsable p := some_.elim id same.mpr
        exact promises_of_both positive (same.mp venue) venueFar (modelFar (same.mp venue)) venue
      · have model : ModelUsable p := by
          refine some_.resolve_left ?_
          rintro ⟨price,known,_⟩
          rw [silent] at known
          cases known
        exact promises_of_short positive short silent model (modelFar model)
      · exact absurd near (not_lt.mpr (venueFar price known usable))
      · exact absurd near (not_lt.mpr (modelFar usable))
  · exact ⟨fun _ => .inl (not_lt.mp positive),fun _ accepted => absurd accepted (refused_of_nonpos positive)⟩

end Rationals

namespace Sample

def leveraged : Opening ℚ := ⟨.long,100,50,1 / 20,some 50⟩

def limits : Limits ℚ := ⟨2000,500⟩

theorem leverage_bought : liquidationDistanceOk leveraged limits = none ∧
    liquidationDistanceOk { leveraged with leverage := 10 } limits = some .liquidationTooClose ∧
    ¬∀ (p : Opening ℚ) (policy : Limits ℚ), liquidationDistanceOk p policy = none → Promises p policy := by
  have accepted : liquidationDistanceOk leveraged limits = none := by decide +kernel
  have refused : liquidationDistanceOk { leveraged with leverage := 10 } limits = some .liquidationTooClose := by decide +kernel
  refine ⟨accepted,refused,fun promises => ?_⟩
  have lower := (promises leveraged limits accepted).lower 10 (by norm_num) (by decide +kernel)
  rw [refused] at lower
  cases lower

end Sample

end RatifyOs.Perps.Liquidation
