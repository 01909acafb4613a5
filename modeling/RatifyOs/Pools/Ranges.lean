import RatifyOs.Data.Rounding
import RatifyOs.Pools.Open

/-! Ranges around the active bin: the loop over counts that are doubles, what comes out of it,
and whether the guards and `pools_open` take it as it is. -/
namespace RatifyOs.Pools
open Data

/-- Counts from here on do not get smaller when one is taken away. -/
def STUCK_COUNT : ℕ := 2 ^ 53 + 4

/-- The loop of `rangeAroundActive` on doubles; nothing is returned while it runs. -/
def shrinkLoop (cap : Double) : ℕ → Double → Double → Option (Double × Double)
  | 0, _, _ => none
  | fuel + 1, lo, hi =>
    if cap < lo + hi + 1 then
      if hi ≤ lo then shrinkLoop cap fuel (lo - 1) hi else shrinkLoop cap fuel lo (hi - 1)
    else some (lo,hi)

/-- `rangeAroundActive` for a bin of the id space and whole counts, as far as its loop gets. -/
def rangeLoop (fuel : ℕ) (activeBinId : ℤ) (below above maxSpan : Double) : Option (Double × Double) := do
  let (lo,hi) ← shrinkLoop (spanCap maxSpan) fuel below above
  return (Double.max (.finite MIN_BIN_ID) (.finite activeBinId - lo),minimum (.finite MAX_BIN_ID) (.finite activeBinId + hi))

section Loop
open Double

theorem one_eq : (1 : Double) = finite (1 : ℕ) := rfl

theorem finite_add (a b : ℚ) : finite a + finite b = ofRat (a + b) := rfl

theorem finite_sub (a b : ℚ) : finite a - finite b = ofRat (a - b) := by
  rw [sub_eq_add_neg]
  rfl

theorem ofRat_borders : ofRat ((2 ^ 53 : ℕ) : ℚ) = finite ((2 ^ 53 : ℕ) : ℚ) ∧
    ofRat ((2 ^ 53 + 1 : ℕ) : ℚ) = finite ((2 ^ 53 : ℕ) : ℚ) ∧
    ofRat ((2 ^ 53 + 2 : ℕ) : ℚ) = finite ((2 ^ 53 + 2 : ℕ) : ℚ) ∧
    ofRat ((2 ^ 53 + 3 : ℕ) : ℚ) = finite ((2 ^ 53 + 4 : ℕ) : ℚ) := by decide +kernel

/-- A count below the border gets smaller, by one where it is small. -/
theorem sub_one {n : ℕ} (positive : 0 < n) (small : n < STUCK_COUNT) :
    ∃ m < n, (finite n : Double) - 1 = finite m ∧ (n ≤ 2 ^ 53 → m + 1 = n) ∧ n ≤ m + 2 := by
  have less : (finite n : Double) - 1 = ofRat ((n - 1 : ℕ) : ℚ) := by
    rw [one_eq,finite_sub,Nat.cast_sub positive]
  unfold STUCK_COUNT at small
  obtain ⟨first,second,third,_⟩ := ofRat_borders
  rcases lt_or_ge (n - 1) (2 ^ 53) with exact_ | large
  · exact ⟨n - 1,by omega,by rw [less,ofRat_natCast exact_],by omega,by omega⟩
  · obtain border | border | border : n - 1 = 2 ^ 53 ∨ n - 1 = 2 ^ 53 + 1 ∨ n - 1 = 2 ^ 53 + 2 := by omega
    · exact ⟨2 ^ 53,by omega,by rw [less,border,first],by omega,by omega⟩
    · exact ⟨2 ^ 53,by omega,by rw [less,border,second],by omega,by omega⟩
    · exact ⟨2 ^ 53 + 2,by omega,by rw [less,border,third],by omega,by omega⟩

/-- The comparison of the loop is exact. -/
theorem cap_lt_iff {cap : ℕ} (narrow : cap ≤ 70) (lo hi : ℕ) :
    (finite cap : Double) < finite lo + finite hi + 1 ↔ cap < lo + hi + 1 := by
  have whole : (finite lo : Double) + finite hi = ofRat ((lo + hi : ℕ) : ℚ) := by
    rw [finite_add,Nat.cast_add]
  rw [whole]
  rcases lt_or_ge (lo + hi) 100 with small | large
  · rw [ofRat_natCast (by omega),one_eq,finite_add,← Nat.cast_add,
      ofRat_natCast (by omega),finite_lt,Nat.cast_lt]
  · refine iff_of_true ?_ (by omega)
    have sum : finite ((100 : ℕ) : ℚ) ≤ ofRat ((lo + hi : ℕ) : ℚ) := by
      rw [← ofRat_natCast (by norm_num)]
      exact ofRat_mono (by exact_mod_cast large)
    have more : finite ((100 : ℕ) : ℚ) ≤ ofRat ((lo + hi : ℕ) : ℚ) + 1 := by
      cases total : ofRat ((lo + hi : ℕ) : ℚ) with
      | finite q =>
        rw [total,finite_le] at sum
        rw [one_eq,finite_add,← ofRat_natCast (by norm_num)]
        apply ofRat_mono
        push_cast
        push_cast at sum
        linarith
      | infinite negative =>
        rw [total] at sum
        exact sum
      | nan =>
        rw [total] at sum
        exact sum
    refine lt_of_lt_of_le ?_ more
    rw [finite_lt,Nat.cast_lt]
    omega

/-- What the loop leaves of the counts: as many bins as fit, the wider side giving way first. -/
def keptBelow (cap below above : ℕ) : ℕ := min below (max ((cap - 1) / 2) (cap - 1 - above))

def keptAbove (cap below above : ℕ) : ℕ := min above (max (cap / 2) (cap - 1 - below))

theorem kept_of_fits {cap below above : ℕ} (fits : below + above + 1 ≤ cap) :
    keptBelow cap below above = below ∧ keptAbove cap below above = above := by
  unfold keptBelow keptAbove
  omega

theorem kept_step_below {cap below above m : ℕ} (wide : cap < below + above + 1) (wider : above ≤ below)
    (less : m < below) (near : below ≤ m + 2) (single : below ≤ 2 ^ 53 → m + 1 = below) (narrow : cap ≤ 70) :
    keptBelow cap m above = keptBelow cap below above ∧ keptAbove cap m above = keptAbove cap below above := by
  unfold keptBelow keptAbove
  omega

theorem kept_step_above {cap below above m : ℕ} (wide : cap < below + above + 1) (wider : below < above)
    (less : m < above) (near : above ≤ m + 2) (single : above ≤ 2 ^ 53 → m + 1 = above) (narrow : cap ≤ 70) :
    keptBelow cap below m = keptBelow cap below above ∧ keptAbove cap below m = keptAbove cap below above := by
  unfold keptBelow keptAbove
  omega

theorem shrinkLoop_ends {cap : ℕ} (narrow : cap ≤ 70) : ∀ (total : ℕ) {below above : ℕ}, below + above = total →
    below < STUCK_COUNT → above < STUCK_COUNT → 0 < cap →
    ∃ fuel, shrinkLoop (finite cap) fuel (finite below) (finite above) =
      some (finite (keptBelow cap below above),finite (keptAbove cap below above)) := by
  intro total
  induction total using Nat.strong_induction_on with
  | _ total ih =>
    intro below above sum first second positive
    rcases lt_or_ge cap (below + above + 1) with wide | fits
    · have goes := (cap_lt_iff narrow below above).mpr wide
      rcases le_or_gt above below with wider | wider
      · obtain ⟨m,less,taken,single,near⟩ := sub_one (by omega : 0 < below) first
        obtain ⟨fuel,ends⟩ := ih (m + above) (by omega) rfl (by omega) second positive
        obtain ⟨same,same'⟩ := kept_step_below wide wider less near single narrow
        rw [same,same'] at ends
        refine ⟨fuel + 1,?_⟩
        rw [shrinkLoop,if_pos goes,if_pos (by simpa using wider),taken]
        exact ends
      · obtain ⟨m,less,taken,single,near⟩ := sub_one (by omega : 0 < above) second
        obtain ⟨fuel,ends⟩ := ih (below + m) (by omega) rfl first (by omega) positive
        obtain ⟨same,same'⟩ := kept_step_above wide wider less near single narrow
        rw [same,same'] at ends
        refine ⟨fuel + 1,?_⟩
        rw [shrinkLoop,if_pos goes,if_neg (by simpa using wider),taken]
        exact ends
    · obtain ⟨same,same'⟩ := kept_of_fits fits
      refine ⟨1,?_⟩
      have stops := mt (cap_lt_iff narrow below above).mp (by omega)
      rw [shrinkLoop,if_neg stops,same,same']

theorem shrinkLoop_mono {cap lo hi : Double} {fuel : ℕ} {ends : Double × Double}
    (returned : shrinkLoop cap fuel lo hi = some ends) {more : ℕ} (enough : fuel ≤ more) :
    shrinkLoop cap more lo hi = some ends := by
  induction fuel generalizing lo hi more with
  | zero => cases returned
  | succ fuel ih =>
    obtain ⟨more,rfl⟩ := Nat.exists_eq_add_of_le' (Nat.pos_of_ne_zero (by omega : more ≠ 0))
    rw [shrinkLoop] at returned ⊢
    split_ifs at returned ⊢ with wide wider
    · exact ih returned (by omega)
    · exact ih returned (by omega)
    · exact returned

private theorem stuck_sub {x : Double} (large : finite STUCK_COUNT ≤ x) : finite STUCK_COUNT ≤ x - 1 := by
  cases x with
  | finite q =>
    rw [finite_le] at large
    rw [one_eq,finite_sub,STUCK_COUNT,← ofRat_borders.2.2.2]
    apply ofRat_mono
    rw [STUCK_COUNT] at large
    push_cast at large ⊢
    linarith
  | infinite negative => exact large
  | nan => exact large

private theorem stuck_sum {lo hi : Double} (first : 0 ≤ lo) (second : 0 ≤ hi)
    (large : finite STUCK_COUNT ≤ lo ∨ finite STUCK_COUNT ≤ hi) : finite STUCK_COUNT ≤ lo + hi + 1 := by
  have border : ∀ q : ℚ, (STUCK_COUNT : ℚ) - 1 ≤ q → finite STUCK_COUNT ≤ ofRat q := by
    intro q le
    rw [STUCK_COUNT,← ofRat_borders.2.2.2]
    apply ofRat_mono
    rw [STUCK_COUNT] at le
    push_cast at le ⊢
    linarith
  have more : ∀ x : Double, finite STUCK_COUNT ≤ x → finite STUCK_COUNT ≤ x + 1 := by
    intro x le
    cases x with
    | finite q =>
      rw [finite_le] at le
      rw [one_eq,finite_add]
      apply border
      push_cast
      linarith
    | infinite negative => exact le
    | nan => exact le
  apply more
  rw [show (0 : Double) = finite (0 : ℕ) from rfl] at first second
  cases lo with
  | finite p =>
    cases hi with
    | finite q =>
      rw [finite_le] at first second
      simp only [finite_le] at large
      rw [finite_add]
      apply border
      push_cast at first second
      rcases large with large | large <;> linarith
    | infinite negative => exact second
    | nan => exact second
  | infinite negative =>
    cases hi with
    | finite q => exact first
    | infinite negative' =>
      cases negative
      · cases negative'
        · rfl
        · exact second
      · exact absurd first Bool.false_ne_true
    | nan => exact second
  | nan => exact first

private theorem le_of_not_le {x y : Double} (first : 0 ≤ x) (second : 0 ≤ y) (wider : ¬y ≤ x) : x ≤ y := by
  change (0 : Double).le x = true at first
  change (0 : Double).le y = true at second
  change ¬y.le x = true at wider
  change x.le y = true
  cases x <;> cases y <;> simp_all [Double.le]
  exact wider.le

/-- Once a side is stuck the loop goes on for ever. -/
theorem shrinkLoop_stuck {cap : ℕ} (narrow : cap ≤ 70) (fuel : ℕ) {lo hi : Double} (first : 0 ≤ lo) (second : 0 ≤ hi)
    (large : finite STUCK_COUNT ≤ lo ∨ finite STUCK_COUNT ≤ hi) : shrinkLoop (finite cap) fuel lo hi = none := by
  have positive : ∀ x : Double, finite STUCK_COUNT ≤ x → 0 ≤ x := by
    intro x le
    cases x with
    | finite q =>
      rw [finite_le] at le
      rw [show (0 : Double) = finite (0 : ℕ) from rfl,finite_le]
      exact (Nat.cast_le.mpr (Nat.zero_le _)).trans le
    | infinite negative => exact le
    | nan => exact le
  induction fuel generalizing lo hi with
  | zero => rfl
  | succ fuel ih =>
    have goes : (finite cap : Double) < lo + hi + 1 := by
      refine lt_of_lt_of_le ?_ (stuck_sum first second large)
      rw [finite_lt,Nat.cast_lt,STUCK_COUNT]
      omega
    rw [shrinkLoop,if_pos goes]
    split_ifs with wider
    · have wide : finite STUCK_COUNT ≤ lo := by
        rcases large with here | there
        · exact here
        · exact le_trans there wider
      exact ih (positive _ (stuck_sub wide)) second (.inl (stuck_sub wide))
    · have wide : finite STUCK_COUNT ≤ hi := by
        rcases large with here | there
        · exact le_trans here (le_of_not_le first second wider)
        · exact there
      exact ih first (positive _ (stuck_sub wide)) (.inr (stuck_sub wide))

theorem spanCap_natCast {maxSpan : ℕ} (positive : 0 < maxSpan) :
    spanCap (finite maxSpan) = finite (min maxSpan 70 : ℕ) := by
  have smaller : minimum (finite maxSpan) (finite MAX_BIN_PER_POSITION) = finite (min maxSpan 70 : ℕ) := by
    unfold minimum MAX_BIN_PER_POSITION
    rcases lt_or_ge 70 maxSpan with wide | narrow
    · rw [if_neg (by simp),if_pos (by rw [finite_lt,Nat.cast_lt]; exact wide),Nat.min_eq_right wide.le]
    · rw [if_neg (by simp),if_neg (by rw [finite_lt,Nat.cast_lt]; omega),Nat.min_eq_left narrow]
  unfold spanCap
  rw [smaller,Double.max,if_neg (by simp),one_eq]
  split_ifs with more
  · rfl
  · rw [finite_lt,Nat.cast_lt] at more
    congr 2
    omega

/-- The ends of a range that leaves these counts, on whole numbers. -/
def around (activeBinId : ℤ) (lo hi : ℕ) : BinRange :=
  ⟨max MIN_BIN_ID (activeBinId - lo),min MAX_BIN_ID (activeBinId + hi)⟩

theorem ofRat_intCast {k : ℤ} (small : k.natAbs < 2 ^ 53) : ofRat k = finite k := by
  obtain ⟨n,rfl | rfl⟩ := k.eq_nat_or_neg
  · rw [Int.cast_natCast,ofRat_natCast (by simpa using small)]
  · rw [Int.cast_neg,Int.cast_natCast,ofRat_neg,ofRat_natCast (by simpa using small)]
    rfl

theorem max_intCast (a b : ℤ) : Double.max (finite a) (finite b) = finite ((max a b : ℤ) : ℚ) := by
  rw [Double.max,if_neg (by simp)]
  split_ifs with less
  · rw [finite_lt,Int.cast_lt] at less
    rw [max_eq_right less.le]
  · rw [finite_lt,Int.cast_lt,not_lt] at less
    rw [max_eq_left less]

theorem minimum_intCast (a b : ℤ) : minimum (finite a) (finite b) = finite ((min a b : ℤ) : ℚ) := by
  rw [minimum,if_neg (by simp)]
  split_ifs with less
  · rw [finite_lt,Int.cast_lt] at less
    rw [min_eq_right less.le]
  · rw [finite_lt,Int.cast_lt,not_lt] at less
    rw [min_eq_left less]

/-- The ends are exact: a bin id and a count that fits are small. -/
theorem finite_ends {activeBinId : ℤ} (low : MIN_BIN_ID ≤ activeBinId) (high : activeBinId ≤ MAX_BIN_ID) {lo hi : ℕ}
    (first : lo ≤ 70) (second : hi ≤ 70) :
    Double.max (finite MIN_BIN_ID) (finite activeBinId - finite lo) = finite (around activeBinId lo hi).lowerBinId ∧
      minimum (finite MAX_BIN_ID) (finite activeBinId + finite hi) = finite (around activeBinId lo hi).upperBinId := by
  unfold MIN_BIN_ID at low
  unfold MAX_BIN_ID at high
  have lower : finite activeBinId - finite lo = finite ((activeBinId - lo : ℤ) : ℚ) := by
    rw [finite_sub,← Int.cast_natCast lo,← Int.cast_sub,ofRat_intCast (by omega)]
  have upper : finite activeBinId + finite hi = finite ((activeBinId + hi : ℤ) : ℚ) := by
    rw [finite_add,← Int.cast_natCast hi,← Int.cast_add,ofRat_intCast (by omega)]
  rw [lower,upper,max_intCast,minimum_intCast]
  exact ⟨rfl,rfl⟩

end Loop

/-- What is promised of a range around the active bin. -/
structure Fits (activeBinId : ℤ) (below above maxSpan : ℕ) (range : BinRange) : Prop where
  active : range.lowerBinId ≤ activeBinId ∧ activeBinId ≤ range.upperBinId
  span : binSpan range.lowerBinId range.upperBinId ≤ min maxSpan MAX_BIN_PER_POSITION
  sides : activeBinId - below ≤ range.lowerBinId ∧ range.upperBinId ≤ activeBinId + above
  requested : below + above + 1 ≤ min maxSpan MAX_BIN_PER_POSITION → range = around activeBinId below above

section Ranges
variable {activeBinId : ℤ} {below above maxSpan : ℕ}

theorem around_fits (low : MIN_BIN_ID ≤ activeBinId) (high : activeBinId ≤ MAX_BIN_ID) (some_ : 0 < maxSpan) :
    Fits activeBinId below above maxSpan
      (around activeBinId (keptBelow (min maxSpan 70) below above) (keptAbove (min maxSpan 70) below above)) := by
  have sum : keptBelow (min maxSpan 70) below above + keptAbove (min maxSpan 70) below above + 1 ≤ min maxSpan 70 := by
    unfold keptBelow keptAbove
    omega
  have first : keptBelow (min maxSpan 70) below above ≤ below := Nat.min_le_left _ _
  have second : keptAbove (min maxSpan 70) below above ≤ above := Nat.min_le_left _ _
  refine ⟨?_,?_,?_,fun fits => ?_⟩
  · unfold around
    dsimp only
    omega
  · unfold around binSpan MAX_BIN_PER_POSITION
    dsimp only
    omega
  · unfold around
    dsimp only
    omega
  · obtain ⟨same,same'⟩ := kept_of_fits fits
    unfold MAX_BIN_PER_POSITION at same same'
    rw [same,same']

theorem rangeLoop_ends (low : MIN_BIN_ID ≤ activeBinId) (high : activeBinId ≤ MAX_BIN_ID) (some_ : 0 < maxSpan)
    (first : below < STUCK_COUNT) (second : above < STUCK_COUNT) :
    let range := around activeBinId (keptBelow (min maxSpan 70) below above) (keptAbove (min maxSpan 70) below above)
    ∃ fuel, rangeLoop fuel activeBinId (.finite below) (.finite above) (.finite maxSpan) =
      some (.finite range.lowerBinId,.finite range.upperBinId) := by
  obtain ⟨fuel,ends⟩ := shrinkLoop_ends (Nat.min_le_right maxSpan 70) _ rfl first second (by omega)
  have small : keptBelow (min maxSpan 70) below above ≤ 70 ∧ keptAbove (min maxSpan 70) below above ≤ 70 := by
    unfold keptBelow keptAbove
    omega
  obtain ⟨lower,upper⟩ := finite_ends low high small.1 small.2
  refine ⟨fuel,?_⟩
  rw [rangeLoop,spanCap_natCast some_,ends]
  dsimp only [bind,Option.bind,pure]
  rw [lower,upper]

/-- More turns do not change what has been returned. -/
theorem rangeLoop_mono {fuel more : ℕ} {below above maxSpan : Double} {ends : Double × Double}
    (returned : rangeLoop fuel activeBinId below above maxSpan = some ends) (enough : fuel ≤ more) :
    rangeLoop more activeBinId below above maxSpan = some ends := by
  obtain ⟨kept,loop,range⟩ := Option.bind_eq_some_iff.mp returned
  exact Option.bind_eq_some_iff.mpr ⟨kept,shrinkLoop_mono loop enough,range⟩

theorem rangeLoop_iff (low : MIN_BIN_ID ≤ activeBinId) (high : activeBinId ≤ MAX_BIN_ID) (some_ : 0 < maxSpan) :
    (∃ fuel range, rangeLoop fuel activeBinId (.finite below) (.finite above) (.finite maxSpan) =
      some (.finite range.lowerBinId,.finite range.upperBinId) ∧ Fits activeBinId below above maxSpan range) ↔
    max below above < STUCK_COUNT := by
  constructor
  · rintro ⟨fuel,range,returned,_⟩
    by_contra large
    have wide : Double.finite STUCK_COUNT ≤ .finite below ∨ Double.finite STUCK_COUNT ≤ .finite above := by
      simp only [Double.finite_le,Nat.cast_le]
      omega
    have stuck := shrinkLoop_stuck (Nat.min_le_right maxSpan 70) fuel (Double.finite_le.mpr (Nat.cast_nonneg below))
      (Double.finite_le.mpr (Nat.cast_nonneg above)) wide
    rw [rangeLoop,spanCap_natCast some_,stuck] at returned
    cases returned
  · intro small
    obtain ⟨fuel,ends⟩ := rangeLoop_ends low high some_ (by omega : below < STUCK_COUNT) (by omega : above < STUCK_COUNT)
    exact ⟨fuel,_,ends,around_fits low high some_⟩

end Ranges

/-! The target of a decision, where the counts are small enough for the loop to end. -/

/-- Around a bin, from the counts of a policy: as wide as a position holds. -/
def targetAround (policy : RebalancePolicy) (activeBinId : ℤ) : BinRange :=
  around activeBinId (keptBelow MAX_BIN_PER_POSITION policy.targetBelowBins.toNat policy.targetAboveBins.toNat)
    (keptAbove MAX_BIN_PER_POSITION policy.targetBelowBins.toNat policy.targetAboveBins.toNat)

def targetSpan (policy : RebalancePolicy) (activeBinId : ℤ) : ℤ :=
  binSpan (targetAround policy activeBinId).lowerBinId (targetAround policy activeBinId).upperBinId

/-- The loop on whole numbers and the loop on doubles leave the same. -/
theorem shrink_eq {turns lo hi : ℕ} (enough : lo + hi ≤ turns) :
    shrink MAX_BIN_PER_POSITION turns lo hi =
      (keptBelow MAX_BIN_PER_POSITION lo hi,keptAbove MAX_BIN_PER_POSITION lo hi) := by
  induction turns generalizing lo hi with
  | zero =>
    obtain ⟨same,same'⟩ := kept_of_fits (by unfold MAX_BIN_PER_POSITION; omega : lo + hi + 1 ≤ MAX_BIN_PER_POSITION)
    rw [shrink,same,same']
  | succ turns ih =>
    rw [shrink]
    have narrow : MAX_BIN_PER_POSITION ≤ 70 := le_rfl
    have some_ : 0 < MAX_BIN_PER_POSITION := by decide
    split_ifs with wide wider
    · obtain ⟨same,same'⟩ := kept_step_below wide wider (m := lo - 1) (by omega) (by omega) (by omega) narrow
      rw [ih (by omega),same,same']
    · obtain ⟨same,same'⟩ := kept_step_above wide (by omega) (m := hi - 1) (by omega) (by omega) (by omega) narrow
      rw [ih (by omega),same,same']
    · obtain ⟨same,same'⟩ := kept_of_fits (not_lt.mp wide)
      rw [same,same']

theorem rangeAroundActive_eq {activeBinId below above : ℤ} {range : BinRange}
    (returned : rangeAroundActive activeBinId below above = some range) :
    (MIN_BIN_ID ≤ activeBinId ∧ activeBinId ≤ MAX_BIN_ID) ∧
      range = around activeBinId (keptBelow MAX_BIN_PER_POSITION below.toNat above.toNat)
        (keptAbove MAX_BIN_PER_POSITION below.toNat above.toNat) := by
  unfold rangeAroundActive at returned
  split_ifs at returned with refused
  rw [shrink_eq le_rfl] at returned
  cases returned
  exact ⟨by omega,rfl⟩

/-- `rangeAroundActive` returns what its loop on doubles comes to, and goes on returning. -/
theorem rangeAroundActive_rangeLoop {activeBinId : ℤ} {below above : ℕ} {range : BinRange}
    (small : max below above < STUCK_COUNT) (returned : rangeAroundActive activeBinId below above = some range) :
    ∃ enough, ∀ fuel ≥ enough, rangeLoop fuel activeBinId (.finite below) (.finite above) (.finite MAX_BIN_PER_POSITION) =
      some (.finite range.lowerBinId,.finite range.upperBinId) := by
  obtain ⟨⟨low,high⟩,rfl⟩ := rangeAroundActive_eq returned
  obtain ⟨enough,ends⟩ := rangeLoop_ends low high (by decide : 0 < MAX_BIN_PER_POSITION) (by omega : below < STUCK_COUNT) (by omega : above < STUCK_COUNT)
  exact ⟨enough,fun fuel more => rangeLoop_mono ends more⟩

/-- A decision has no other target than the range around the active bin. -/
theorem decideRebalance_target {policy : RebalancePolicy} {s : RebalanceSubject} {history : RebalanceHistory} {now : ℚ}
    {d : RebalanceDecision} {target : BinRange} (decided : decideRebalance policy s history now = some d)
    (moves : d.targetRange = some target) :
    rangeAroundActive s.pool.activeLevel policy.targetBelowBins policy.targetAboveBins = some target := by
  unfold decideRebalance at decided
  dsimp only at decided
  split_ifs at decided
  all_goals try (cases decided; cases moves)
  cases found : rangeAroundActive s.pool.activeLevel policy.targetBelowBins policy.targetAboveBins with
  | none =>
    rw [found] at decided
    cases decided
  | some range =>
    rw [found] at decided
    dsimp only at decided
    split_ifs at decided
    · cases decided
      cases moves
    · cases known : s.economics range with
      | none =>
        rw [known] at decided
        cases decided
        cases moves
      | some econ =>
        rw [known] at decided
        dsimp only at decided
        split_ifs at decided
        · cases decided
          cases moves
        · cases decided
          exact moves

section Reopening
variable (numberText : Double → String) {cfg : PoolGuardConfig}

/-- The cap of the guards is a number of levels, and only as large as the config where that is less. -/
theorem minimum_levels {x : Double} (wide : 1 ≤ x) : ∃ q : ℚ, minimum x (.finite MAX_LEVELS_PER_POSITION) = .finite q ∧
    1 ≤ q ∧ ∀ span : ℤ, span ≤ 70 → (.finite span ≤ x ↔ (span : ℚ) ≤ q) := by
  have seventy : ((MAX_LEVELS_PER_POSITION : ℕ) : ℚ) = (70 : ℤ) := rfl
  cases x with
  | finite q =>
    rw [Double.ofNat_eq,Double.finite_le,Nat.cast_one] at wide
    rw [minimum,if_neg (by simp),seventy]
    split_ifs with more
    · rw [Double.finite_lt] at more
      refine ⟨_,rfl,by norm_num,fun span narrow => ?_⟩
      rw [Double.finite_le,Int.cast_le]
      exact iff_of_true ((Int.cast_le.mpr narrow).trans more.le) narrow
    · exact ⟨q,rfl,wide,fun span _ => Double.finite_le⟩
  | infinite negative =>
    cases negative with
    | true => cases wide
    | false =>
      refine ⟨(70 : ℤ),rfl,by norm_num,fun span narrow => ?_⟩
      exact iff_of_true rfl (Int.cast_le.mpr narrow)
  | nan => cases wide

theorem guardLevelRange_none {lowerLevel upperLevel : ℤ} (ordered : lowerLevel ≤ upperLevel)
    (narrow : binSpan lowerLevel upperLevel ≤ 70) (wide : 1 ≤ cfg.maxLevelSpan) :
    guardLevelRange numberText cfg lowerLevel upperLevel = none ↔
      .finite (binSpan lowerLevel upperLevel) ≤ cfg.maxLevelSpan := by
  obtain ⟨q,cap,_,bound⟩ := minimum_levels wide
  unfold guardLevelRange
  rw [if_neg (not_lt.mpr ordered)]
  dsimp only
  rw [refusal_eq_none,cap,bound _ narrow,Double.finite_lt,not_lt]
  rfl

/-- The loop of `pools_open` leaves counts that fit as they are. -/
theorem shrinkWithin_of_fits {cap : Double} {turns lo hi : ℕ} (fits : ¬cap < .finite (lo + hi + 1 : ℕ)) :
    shrinkWithin cap turns lo hi = (lo,hi) := by
  cases turns with
  | zero => rfl
  | succ turns => rw [shrinkWithin,if_neg fits]

theorem spanCap_fits {x : Double} (wide : 1 ≤ x) {span : ℤ} (narrow : span ≤ 70) (within : .finite span ≤ x) :
    ¬spanCap x < .finite span := by
  obtain ⟨q,cap,least,bound⟩ := minimum_levels wide
  have spans := (bound span narrow).mp within
  have same : spanCap x = .finite q := by
    unfold spanCap
    rw [show MAX_BIN_PER_POSITION = MAX_LEVELS_PER_POSITION from rfl,cap,Double.max,if_neg (by simp)]
    split_ifs with more
    · rfl
    · rw [Double.ofNat_eq,Double.finite_lt,Nat.cast_one,not_lt] at more
      rw [Double.ofNat_eq,Nat.cast_one,le_antisymm more least]
  rw [same,Double.finite_lt]
  exact not_lt.mpr spans

/-- A range around the active bin that the guards take is opened as it is. -/
theorem rangeWithin_same {activeBinId : ℤ} {target : BinRange}
    (low : MIN_BIN_ID ≤ activeBinId) (high : activeBinId ≤ MAX_BIN_ID)
    (inside : MIN_BIN_ID ≤ target.lowerBinId ∧ target.upperBinId ≤ MAX_BIN_ID)
    (active : target.lowerBinId ≤ activeBinId ∧ activeBinId ≤ target.upperBinId)
    (narrow : binSpan target.lowerBinId target.upperBinId ≤ 70) (wide : 1 ≤ cfg.maxLevelSpan)
    (within : .finite (binSpan target.lowerBinId target.upperBinId) ≤ cfg.maxLevelSpan) :
    rangeWithin activeBinId (activeBinId - target.lowerBinId).toNat (target.upperBinId - activeBinId).toNat
      cfg.maxLevelSpan = .ok target := by
  have span : (((activeBinId - target.lowerBinId).toNat + (target.upperBinId - activeBinId).toNat + 1 : ℕ) : ℚ) =
      (binSpan target.lowerBinId target.upperBinId : ℚ) := by
    rw [← Int.cast_natCast]
    congr 1
    unfold binSpan
    omega
  have fits := spanCap_fits wide narrow within
  rw [← span] at fits
  unfold rangeWithin binMathError
  rw [Data.Result.reject,if_neg (by omega),shrinkWithin_of_fits fits]
  dsimp only [bind,Except.bind,pure,Except.pure]
  rw [Int.toNat_of_nonneg (by omega),Int.toNat_of_nonneg (by omega),sub_sub_cancel,add_sub_cancel,
    max_eq_right inside.1,min_eq_right inside.2]

end Reopening

theorem ranges_fit_iff {activeBinId : ℤ} {below above maxSpan : ℕ} (low : MIN_BIN_ID ≤ activeBinId)
    (high : activeBinId ≤ MAX_BIN_ID) (some_ : 0 < maxSpan) (numberText : Double → String) {cfg : PoolGuardConfig}
    (wide : 1 ≤ cfg.maxLevelSpan) (policy : RebalancePolicy) (s : RebalanceSubject) (history : RebalanceHistory) (now : ℚ) :
    ((∃ fuel range, rangeLoop fuel activeBinId (.finite below) (.finite above) (.finite maxSpan) =
        some (.finite range.lowerBinId,.finite range.upperBinId) ∧ Fits activeBinId below above maxSpan range) ↔
      max below above < STUCK_COUNT) ∧
    ∀ d ∈ decideRebalance policy s history now, ∀ target ∈ d.targetRange,
      (guardLevelRange numberText cfg target.lowerBinId target.upperBinId = none ∧
        rangeWithin s.pool.activeLevel (s.pool.activeLevel - target.lowerBinId).toNat
          (target.upperBinId - s.pool.activeLevel).toNat cfg.maxLevelSpan = .ok target ↔
      .finite (targetSpan policy s.pool.activeLevel) ≤ cfg.maxLevelSpan) := by
  refine ⟨rangeLoop_iff low high some_,fun d decided target moves => ?_⟩
  obtain ⟨⟨low',high'⟩,around_⟩ := rangeAroundActive_eq (decideRebalance_target decided moves)
  have same : target = targetAround policy s.pool.activeLevel := around_
  have fits : Fits s.pool.activeLevel policy.targetBelowBins.toNat policy.targetAboveBins.toNat MAX_BIN_PER_POSITION target := by
    rw [same]
    exact around_fits low' high' (by decide)
  have inside : MIN_BIN_ID ≤ target.lowerBinId ∧ target.upperBinId ≤ MAX_BIN_ID := by
    rw [around_]
    exact ⟨le_max_left _ _,min_le_left _ _⟩
  have narrow : binSpan target.lowerBinId target.upperBinId ≤ 70 := fits.span
  have admitted := guardLevelRange_none numberText (fits.active.1.trans fits.active.2) narrow wide
  rw [admitted,targetSpan,← same]
  exact and_iff_left_of_imp (rangeWithin_same low' high' inside fits.active narrow wide)

/-! Where `decideRebalance` is not told of the guards: a policy of ten bins on each side, and a config
that takes twenty levels. -/
namespace Sample

def widePolicy : RebalancePolicy where
  driftBins := 2
  edgeTriggerPct := .finite (1 / 10)
  minIntervalMs := 3600000
  maxPerDay := 4
  minNetBenefitQuote := 0
  targetBelowBins := 10
  targetAboveBins := 10

def outside : RebalanceSubject where
  position := ⟨"pool","owner",0,20⟩
  pool := ⟨⟨"pool","quote",9⟩,30⟩
  economics := fun _ => some ⟨100,1,0,99,0⟩

def narrowGuards : PoolGuardConfig := { buyGuards with maxLevelSpan := 20 }

end Sample

open Sample in
theorem ranges_fit_drifted :
    ((∃ fuel range, rangeLoop fuel 30 (.finite (10 : ℕ)) (.finite (10 : ℕ)) (.finite (20 : ℕ)) =
        some (.finite range.lowerBinId,.finite range.upperBinId) ∧ Fits 30 10 10 20 range) ↔ max 10 10 < STUCK_COUNT) ∧
    ∀ d ∈ decideRebalance widePolicy outside EMPTY_HISTORY 0, ∀ target ∈ d.targetRange,
      (guardLevelRange (fun _ => "") buyGuards target.lowerBinId target.upperBinId = none ∧
        rangeWithin 30 (30 - target.lowerBinId).toNat (target.upperBinId - 30).toNat buyGuards.maxLevelSpan = .ok target ↔
      .finite (targetSpan widePolicy 30) ≤ buyGuards.maxLevelSpan) :=
  ranges_fit_iff (by decide) (by decide) (by decide) (fun _ => "") (by decide) widePolicy outside EMPTY_HISTORY 0

open Sample in
theorem decided_refused : ¬∀ (numberText : Double → String) (cfg : PoolGuardConfig), 1 ≤ cfg.maxLevelSpan →
    ∀ (policy : RebalancePolicy) (s : RebalanceSubject) (history : RebalanceHistory) (now : ℚ),
    ∀ d ∈ decideRebalance policy s history now, ∀ target ∈ d.targetRange,
      guardLevelRange numberText cfg target.lowerBinId target.upperBinId = none := by
  intro accepted
  have decided : decideRebalance widePolicy outside EMPTY_HISTORY 0 =
      some ⟨.rebalance,.rebalanceOk,some ⟨20,40⟩,⟨0,20⟩,10,none,some ⟨100,1,0,99,0⟩⟩ := by rfl
  have none_ := accepted (fun _ => "") narrowGuards (by decide) widePolicy outside EMPTY_HISTORY 0 _ decided ⟨20,40⟩ rfl
  revert none_
  decide

end RatifyOs.Pools
