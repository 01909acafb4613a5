import Mathlib.Algebra.BigOperators.Group.Finset.Basic
import Mathlib.Data.Prod.Lex
import RatifyOs.Data.Collation
import RatifyOs.Data.Result
import RatifyOs.Data.Rounding

/-! `aggregateCandles`: the trades of each interval as one candle. -/
namespace RatifyOs.Market
open Data Data.Result

def maxSafeInteger : ℤ := 2 ^ 53 - 1

/-- `Number.isSafeInteger` -/
def isSafeInteger : Double → Bool
  | .finite q => q.den = 1 ∧ |q| ≤ maxSafeInteger
  | _ => false

theorem isSafeInteger_natCast {n : ℕ} (safe : n < 2 ^ 53) : isSafeInteger (.finite n) = true := by
  have bound : (n : ℚ) ≤ (maxSafeInteger : ℤ) := by
    have bound : (n : ℤ) ≤ maxSafeInteger := by
      unfold maxSafeInteger
      omega
    exact_mod_cast bound
  rw [isSafeInteger,Nat.abs_cast]
  simpa using bound

section Prices

structure Rational where
  numerator : ℤ
  denominator : ℤ
  deriving DecidableEq

def gcdLoop (a b : ℕ) : ℕ :=
  if b = 0 then a else gcdLoop b (a % b)
termination_by b
decreasing_by exact Nat.mod_lt a (Nat.pos_of_ne_zero ‹_›)

def gcd (a b : ℤ) : ℤ := gcdLoop a.natAbs b.natAbs

def rational (n d : ℤ) : Except String Rational :=
  if d ≤ 0 then .error "denominator must be positive"
  else .ok ⟨n.tdiv (gcd n d),d.tdiv (gcd n d)⟩

namespace Rational

def valid (r : Rational) : Bool := 0 < r.numerator ∧ 0 < r.denominator

def compare (a b : Rational) : ℤ := a.numerator * b.denominator - b.numerator * a.denominator

def canonical (r : Rational) : Except String Rational := rational r.numerator r.denominator

/-- The fraction as a number. -/
def value (r : Rational) : ℚ := r.numerator / r.denominator

/-- The fraction in lowest terms. -/
def lowest (r : Rational) : Rational := ⟨r.value.num,r.value.den⟩

end Rational

theorem gcdLoop_eq (a b : ℕ) : gcdLoop a b = a.gcd b := by
  induction a, b using gcdLoop.induct with
  | case1 a => rw [gcdLoop,if_pos rfl,Nat.gcd_zero_right]
  | case2 a b some_ ih => rw [gcdLoop,if_neg some_,ih,Nat.gcd_comm b,← Nat.gcd_rec,Nat.gcd_comm]

theorem Rational.canonical_eq {r : Rational} (positive : 0 < r.denominator) : r.canonical = .ok r.lowest := by
  rw [canonical,rational,if_neg (not_le.mpr positive),gcd,gcdLoop_eq]
  change Except.ok (⟨r.numerator.tdiv (Int.gcd r.numerator r.denominator),
    r.denominator.tdiv (Int.gcd r.numerator r.denominator)⟩ : Rational) = _
  have shared : 0 < Int.gcd r.numerator r.denominator := Int.gcd_pos_of_ne_zero_right _ positive.ne'
  have left := Int.gcd_dvd_left r.numerator r.denominator
  have right := Int.gcd_dvd_right r.numerator r.denominator
  rw [Int.tdiv_eq_ediv_of_dvd left,Int.tdiv_eq_ediv_of_dvd right]
  have coprime := Int.gcd_ediv_gcd_ediv_gcd shared
  have below : 0 < r.denominator / Int.gcd r.numerator r.denominator :=
    Int.ediv_pos_of_pos_of_dvd positive (Int.natCast_nonneg _) right
  have same : r.value = (r.numerator / Int.gcd r.numerator r.denominator : ℤ) /
      (r.denominator / Int.gcd r.numerator r.denominator : ℤ) := by
    have nonzero : ((Int.gcd r.numerator r.denominator : ℤ) : ℚ) ≠ 0 := by exact_mod_cast shared.ne'
    rw [Int.cast_div left nonzero,Int.cast_div right nonzero,div_div_div_cancel_right₀ nonzero,value]
  rw [lowest,same,Rat.num_div_eq_of_coprime below coprime,Rat.den_div_eq_of_coprime below coprime]

theorem Rational.compare_pos {a b : Rational} (left : 0 < a.denominator) (right : 0 < b.denominator) :
    0 < compare a b ↔ b.value < a.value := by
  have left' : (0 : ℚ) < a.denominator := by exact_mod_cast left
  have right' : (0 : ℚ) < b.denominator := by exact_mod_cast right
  rw [compare,sub_pos,value,value,div_lt_div_iff₀ right' left']
  exact_mod_cast Iff.rfl

end Prices

structure MarketTrade where
  id : String
  timestamp : Double
  price : Rational
  baseAmount : ℤ
  quoteAmount : ℤ
  slot : ℤ
  sequence : Double
  deriving DecidableEq

structure Candle where
  start : Double
  end_ : Double
  open_ : Rational
  high : Rational
  low : Rational
  close : Rational
  baseVolume : ℤ
  quoteVolume : ℤ
  trades : ℕ

section Aggregate

/-- The comparison that `sort` is given; a difference that is not a number counts as none. -/
def order (locale : Collation) (a b : MarketTrade) : Double :=
  let time := a.timestamp - b.timestamp
  let place := a.sequence - b.sequence
  if time ≠ 0 ∧ time ≠ .nan then time
  else if a.slot ≠ b.slot then if a.slot < b.slot then .finite (-1) else 1
  else if place ≠ 0 ∧ place ≠ .nan then place
  else .finite (locale.compare a.id b.id)

/-- The first entry for each id. -/
def unseen : List String → List MarketTrade → List MarketTrade
  | _, [] => []
  | seen, t :: rest => if t.id ∈ seen then unseen seen rest else t :: unseen (t.id :: seen) rest

def sorted (locale : Collation) (trades : List MarketTrade) : List MarketTrade :=
  trades.insertionSort fun a b => ¬0 < order locale a b

def Candle.fresh (start interval : Double) (p : Rational) : Candle where
  start
  end_ := start + interval
  open_ := p
  high := p
  low := p
  close := p
  baseVolume := 0
  quoteVolume := 0
  trades := 0

def Candle.add (c : Candle) (t : MarketTrade) (p : Rational) : Candle where
  start := c.start
  end_ := c.end_
  open_ := c.open_
  high := if 0 < Rational.compare p c.high then p else c.high
  low := if Rational.compare p c.low < 0 then p else c.low
  close := p
  baseVolume := c.baseVolume + t.baseAmount
  quoteVolume := c.quoteVolume + t.quoteAmount
  trades := c.trades + 1

/-- The candle that a trade goes to, after those before it. -/
def current (out : List Candle) (start interval : Double) (p : Rational) : List Candle × Candle :=
  match out.getLast? with
  | none => (out,.fresh start interval p)
  | some c => if c.start = start then (out.dropLast,c) else (out,.fresh start interval p)

def step (interval : Double) (out : List Candle) (t : MarketTrade) : Except String (List Candle) := do
  reject (isSafeInteger t.timestamp = false ∨ t.timestamp < 0) "timestamp must be non-negative"
  reject (t.price.valid = false) "price must be positive"
  reject (t.baseAmount < 0 ∨ t.quoteAmount < 0) "volumes must be non-negative"
  let start := (t.timestamp / interval).floor * interval
  let p ← t.price.canonical
  let (before,c) := current out start interval p
  return before ++ [c.add t p]

def aggregateCandles (locale : Collation) (input : List MarketTrade) (intervalSeconds : Double) :
    Except String (List Candle) := do
  reject (isSafeInteger intervalSeconds = false ∨ intervalSeconds ≤ 0) "interval must be a positive integer"
  (sorted locale (unseen [] input)).foldlM (step intervalSeconds) []

end Aggregate

section Order

/-- What the checks ask of a trade, and a number for its place in the slot. -/
structure Valid (t : MarketTrade) : Prop where
  timestamp : ∃ n : ℕ, t.timestamp = .finite n ∧ n < 2 ^ 53
  sequence : ∃ q, t.sequence = .finite q ∧ Double.ofRat q = .finite q
  price : 0 < t.price.numerator ∧ 0 < t.price.denominator
  amounts : 0 ≤ t.baseAmount ∧ 0 ≤ t.quoteAmount

def real : Double → ℚ
  | .finite q => q
  | _ => 0

/-- Timestamp, slot and sequence, in this order. -/
def position (t : MarketTrade) : ℚ ×ₗ ℤ ×ₗ ℚ := toLex (real t.timestamp,toLex (t.slot,real t.sequence))

def Earlier (locale : Collation) (a b : MarketTrade) : Prop :=
  position a < position b ∨ position a = position b ∧ locale.compare a.id b.id ≤ 0

theorem position_lt {a b : MarketTrade} : position a < position b ↔
    real a.timestamp < real b.timestamp ∨ real a.timestamp = real b.timestamp ∧
      (a.slot < b.slot ∨ a.slot = b.slot ∧ real a.sequence < real b.sequence) := by
  simp [position,Prod.Lex.lt_iff]

theorem position_eq {a b : MarketTrade} : position a = position b ↔
    real a.timestamp = real b.timestamp ∧ a.slot = b.slot ∧ real a.sequence = real b.sequence := by
  simp [position]

theorem order_iff {locale : Collation} {a b : MarketTrade} (left : Valid a) (right : Valid b) :
    ¬0 < order locale a b ↔ Earlier locale a b := by
  obtain ⟨s,time,safe⟩ := left.timestamp
  obtain ⟨t,time',safe'⟩ := right.timestamp
  obtain ⟨p,place,exact_⟩ := left.sequence
  obtain ⟨q,place',exact'⟩ := right.sequence
  rw [Earlier,position_lt,position_eq,order,time,time',place,place']
  dsimp only [real]
  rcases Double.difference_cases (Double.ofRat_natCast safe) (Double.ofRat_natCast safe') with
    ⟨less,some_,below⟩ | ⟨same,none_⟩ | ⟨more,some_,above⟩
  · rw [if_pos some_]
    exact iff_of_true below (.inl (.inl less))
  · rw [none_,if_neg (by simp)]
    rcases lt_trichotomy a.slot b.slot with less | slots | more
    · rw [if_pos less.ne,if_pos less]
      exact iff_of_true (by decide) (.inl (.inr ⟨same,.inl less⟩))
    · rw [if_neg (not_not.mpr slots)]
      rcases Double.difference_cases exact_ exact' with ⟨less,some_,below⟩ | ⟨places,none_⟩ | ⟨more,some_,above⟩
      · rw [if_pos some_]
        exact iff_of_true below (.inl (.inr ⟨same,.inr ⟨slots,less⟩⟩))
      · rw [none_,if_neg (by simp),Double.ofNat_eq,Double.finite_lt,not_lt,Nat.cast_zero]
        simp [same,slots,places]
      · rw [if_pos some_]
        refine iff_of_false (not_not.mpr above) ?_
        simp [same,slots,more.not_gt,more.ne']
    · rw [if_pos more.ne',if_neg more.not_gt]
      refine iff_of_false (by decide) ?_
      simp [same,more.not_gt,more.ne']
  · rw [if_pos some_]
    refine iff_of_false (not_not.mpr above) ?_
    simp [more.not_gt,more.ne']

variable {locale : Collation} {a b c : MarketTrade}

theorem Earlier.total (a b : MarketTrade) : Earlier locale a b ∨ Earlier locale b a := by
  rcases lt_trichotomy (position a) (position b) with less | same | more
  · exact .inl (.inl less)
  · exact (locale.total a.id b.id).imp (fun le => .inr ⟨same,le⟩) fun le => .inr ⟨same.symm,le⟩
  · exact .inr (.inl more)

theorem Earlier.refl (a : MarketTrade) : Earlier locale a a := (Earlier.total a a).elim id id

theorem Earlier.trans (first : Earlier locale a b) (second : Earlier locale b c) : Earlier locale a c := by
  rcases first with less | ⟨same,le⟩
  · rcases second with less' | ⟨same',-⟩
    · exact .inl (less.trans less')
    · exact .inl (same' ▸ less)
  · rcases second with less' | ⟨same',le'⟩
    · exact .inl (same ▸ less')
    · exact .inr ⟨same.trans same',locale.trans _ _ _ le le'⟩

theorem Earlier.both (first : Earlier locale a b) (second : Earlier locale b a) :
    position a = position b ∧ locale.compare a.id b.id = 0 := by
  rcases first with less | ⟨same,le⟩
  · rcases second with less' | ⟨same',-⟩
    · exact absurd less' less.not_gt
    · exact absurd same' less.ne'
  · rcases second with less' | ⟨-,le'⟩
    · exact absurd same less'.ne'
    · exact ⟨same,Collation.eq_zero le le'⟩

theorem Earlier.timestamp (earlier : Earlier locale a b) : real a.timestamp ≤ real b.timestamp := by
  rcases earlier with less | ⟨same,-⟩
  · rcases position_lt.mp less with less | ⟨same,-⟩
    · exact less.le
    · exact same.le
  · exact (position_eq.mp same).1.le

end Order

section Sorted

/-- The lists the result does not depend on the order of: entries with one id are one trade, and two
trades differ in their position or in the order of their ids. -/
structure Told (locale : Collation) (trades : List MarketTrade) : Prop where
  valid : ∀ t ∈ trades, Valid t
  ids : ∀ a ∈ trades, ∀ b ∈ trades, a.id = b.id → a = b
  apart : ∀ a ∈ trades, ∀ b ∈ trades, a ≠ b → position a ≠ position b ∨ locale.compare a.id b.id ≠ 0

variable {locale : Collation} {trades : List MarketTrade}

theorem mem_unseen (ids : ∀ a ∈ trades, ∀ b ∈ trades, a.id = b.id → a = b) (seen : List String) (t : MarketTrade) :
    t ∈ unseen seen trades ↔ t ∈ trades ∧ t.id ∉ seen := by
  induction trades generalizing seen with
  | nil => simp [unseen]
  | cons u rest ih =>
    have ids' : ∀ a ∈ rest, ∀ b ∈ rest, a.id = b.id → a = b := fun a first b second =>
      ids a (.tail _ first) b (.tail _ second)
    have once : t ∈ rest → t.id = u.id → t = u := fun inside same => ids t (.tail _ inside) u (.head _) same
    rw [unseen]
    split_ifs with known
    · rw [ih ids',List.mem_cons]
      constructor
      · exact fun ⟨inside,new⟩ => ⟨.inr inside,new⟩
      · rintro ⟨rfl | inside,new⟩
        · exact absurd known new
        · exact ⟨inside,new⟩
    · rw [List.mem_cons,ih ids',List.mem_cons,List.mem_cons]
      constructor
      · rintro (rfl | ⟨inside,new⟩)
        · exact ⟨.inl rfl,known⟩
        · exact ⟨.inr inside,fun old => new (.inr old)⟩
      · rintro ⟨rfl | inside,new⟩
        · exact .inl rfl
        · by_cases same : t = u
          · exact .inl same
          · exact .inr ⟨inside,fun old => old.elim (fun old => same (once inside old)) new⟩

theorem nodup_unseen (seen : List String) (trades : List MarketTrade) :
    (unseen seen trades).Nodup ∧ ∀ t ∈ unseen seen trades, t.id ∉ seen := by
  induction trades generalizing seen with
  | nil => simp [unseen]
  | cons u rest ih =>
    rw [unseen]
    split_ifs with known
    · exact ih seen
    · obtain ⟨distinct,new⟩ := ih (u.id :: seen)
      refine ⟨List.nodup_cons.mpr ⟨fun inside => new u inside (.head _),distinct⟩,?_⟩
      intro t inside
      rcases List.mem_cons.mp inside with rfl | later
      · exact known
      · exact fun old => new t later (.tail _ old)

theorem mem_sorted (told : Told locale trades) (t : MarketTrade) : t ∈ sorted locale (unseen [] trades) ↔ t ∈ trades := by
  rw [sorted,List.mem_insertionSort,mem_unseen told.ids]
  simp

theorem nodup_sorted (locale : Collation) (trades : List MarketTrade) : (sorted locale (unseen [] trades)).Nodup :=
  (List.perm_insertionSort _ _).nodup_iff.mpr (nodup_unseen [] trades).1

theorem valid_unseen (told : Told locale trades) : ∀ t ∈ unseen [] trades, Valid t :=
  fun t inside => told.valid t ((mem_unseen told.ids [] t).mp inside).1

theorem order_total (valid : ∀ t ∈ trades, Valid t) :
    ∀ a ∈ trades, ∀ b ∈ trades, ¬0 < order locale a b ∨ ¬0 < order locale b a := by
  intro a first b second
  rw [order_iff (valid a first) (valid b second),order_iff (valid b second) (valid a first)]
  exact Earlier.total a b

theorem order_trans (valid : ∀ t ∈ trades, Valid t) : ∀ a ∈ trades, ∀ b ∈ trades, ∀ c ∈ trades,
    ¬0 < order locale a b → ¬0 < order locale b c → ¬0 < order locale a c := by
  intro a first b second c third
  rw [order_iff (valid a first) (valid b second),order_iff (valid b second) (valid c third),
    order_iff (valid a first) (valid c third)]
  exact Earlier.trans

theorem pairwise_sorted (told : Told locale trades) :
    (sorted locale (unseen [] trades)).Pairwise (Earlier locale) := by
  have valid := valid_unseen told
  apply List.Pairwise.imp_of_mem _ (pairwise_insertionSort_of (order_total valid) (order_trans valid))
  intro a b first second le
  exact (order_iff (valid a ((List.mem_insertionSort _).mp first)) (valid b ((List.mem_insertionSort _).mp second))).mp le

/-- The same trades in another order, and as often as one likes, are sorted alike. -/
theorem sorted_congr (told : Told locale trades) {trades' : List MarketTrade}
    (same : ∀ t, t ∈ trades' ↔ t ∈ trades) :
    sorted locale (unseen [] trades') = sorted locale (unseen [] trades) := by
  have ids' : ∀ a ∈ trades', ∀ b ∈ trades', a.id = b.id → a = b := fun a first b second =>
    told.ids a ((same a).mp first) b ((same b).mp second)
  have valid := valid_unseen told
  symm
  apply insertionSort_eq_of_perm _ (order_total valid) (order_trans valid)
  · intro a first b second le ge
    by_contra distinct
    obtain ⟨place,text⟩ := Earlier.both ((order_iff (valid a first) (valid b second)).mp le)
      ((order_iff (valid b second) (valid a first)).mp ge)
    rcases told.apart a ((mem_unseen told.ids [] a).mp first).1 b ((mem_unseen told.ids [] b).mp second).1 distinct with
      other | other
    · exact other place
    · exact other text
  · apply (List.perm_ext_iff_of_nodup (nodup_unseen [] trades).1 (nodup_unseen [] trades').1).mpr
    intro t
    rw [mem_unseen told.ids,mem_unseen ids',same]

end Sorted

section Grouping

/-- `floor(timestamp / interval)` -/
def bucket (n : ℕ) (t : MarketTrade) : ℕ := ⌊real t.timestamp⌋₊ / n

/-- The candle of some trades: open and close are the first and the last price, high and low the
extremes as rationals, in lowest terms. -/
structure Candle.Of (locale : Collation) (n k : ℕ) (ts : Finset MarketTrade) (c : Candle) : Prop where
  start : c.start = .finite (k * n : ℕ)
  end_ : c.end_ = .finite (k * n : ℕ) + .finite n
  open_ : ∃ t ∈ ts, (∀ u ∈ ts, Earlier locale t u) ∧ c.open_ = t.price.lowest
  high : ∃ t ∈ ts, (∀ u ∈ ts, u.price.value ≤ t.price.value) ∧ c.high = t.price.lowest
  low : ∃ t ∈ ts, (∀ u ∈ ts, t.price.value ≤ u.price.value) ∧ c.low = t.price.lowest
  close : ∃ t ∈ ts, (∀ u ∈ ts, Earlier locale u t) ∧ c.close = t.price.lowest
  baseVolume : c.baseVolume = ∑ t ∈ ts, t.baseAmount
  quoteVolume : c.quoteVolume = ∑ t ∈ ts, t.quoteAmount
  trades : c.trades = ts.card

/-- One candle for each bucket that is not empty, in increasing order. -/
def Grouped (locale : Collation) (n : ℕ) (ts : Finset MarketTrade) (out : List Candle) : Prop :=
  ∃ ks : List ℕ, ks.Pairwise (· < ·) ∧ (∀ k, k ∈ ks ↔ ∃ t ∈ ts, bucket n t = k) ∧
    List.Forall₂ (fun k c => c.Of locale n k (ts.filter (bucket n · = k))) ks out

theorem Rational.value_lowest (r : Rational) : r.lowest.value = r.value := by
  rw [lowest,value]
  exact_mod_cast Rat.num_div_den r.value

theorem Rational.lowest_pos (r : Rational) : 0 < r.lowest.denominator :=
  Int.natCast_pos.mpr r.value.den_pos

theorem Rational.compare_neg (a b : Rational) : -compare a b = compare b a := neg_sub _ _

variable {locale : Collation} {n k : ℕ} {ts : Finset MarketTrade} {t : MarketTrade}

theorem Candle.Of.fresh (t : MarketTrade) :
    ((Candle.fresh (.finite (k * n : ℕ)) (.finite n) t.price.lowest).add t t.price.lowest).Of locale n k {t} := by
  have first : ∃ u ∈ ({t} : Finset MarketTrade), (∀ v ∈ ({t} : Finset MarketTrade), Earlier locale u v) ∧
      t.price.lowest = u.price.lowest := by
    refine ⟨t,Finset.mem_singleton_self t,fun v inside => ?_,rfl⟩
    rw [Finset.mem_singleton.mp inside]
    exact Earlier.refl t
  have extreme : ∃ u ∈ ({t} : Finset MarketTrade), (∀ v ∈ ({t} : Finset MarketTrade), v.price.value = u.price.value) ∧
      t.price.lowest = u.price.lowest := by
    refine ⟨t,Finset.mem_singleton_self t,fun v inside => ?_,rfl⟩
    rw [Finset.mem_singleton.mp inside]
  obtain ⟨u,inside,same,price⟩ := extreme
  refine ⟨rfl,rfl,first,⟨u,inside,fun v member => (same v member).le,?_⟩,⟨u,inside,fun v member => (same v member).ge,?_⟩,?_,?_,?_,?_⟩
  · exact (ite_self _).trans price
  · exact (ite_self _).trans price
  · refine ⟨t,Finset.mem_singleton_self t,fun v inside => ?_,rfl⟩
    rw [Finset.mem_singleton.mp inside]
    exact Earlier.refl t
  · rw [Finset.sum_singleton]
    exact zero_add _
  · rw [Finset.sum_singleton]
    exact zero_add _
  · rfl

/-- A later trade of the bucket. -/
theorem Candle.Of.add {c : Candle} (of : c.Of locale n k ts) (new : t ∉ ts) (after : ∀ u ∈ ts, Earlier locale u t) :
    (c.add t t.price.lowest).Of locale n k (insert t ts) := by
  have here : t ∈ insert t ts := Finset.mem_insert_self t ts
  have before : ∀ {u}, u ∈ ts → u ∈ insert t ts := Finset.mem_insert_of_mem
  have compares : ∀ u ∈ ts, (0 < Rational.compare t.price.lowest u.price.lowest ↔ u.price.value < t.price.value) ∧
      (Rational.compare t.price.lowest u.price.lowest < 0 ↔ t.price.value < u.price.value) := by
    intro u inside
    rw [← neg_pos,Rational.compare_neg,Rational.compare_pos t.price.lowest_pos u.price.lowest_pos,
      Rational.compare_pos u.price.lowest_pos t.price.lowest_pos,Rational.value_lowest,Rational.value_lowest]
    exact ⟨Iff.rfl,Iff.rfl⟩
  obtain ⟨start,end_,⟨o,inside,first,opens⟩,⟨h,inside_h,most,high⟩,⟨l,inside_l,least,low⟩,-,base,quote_,count⟩ := of
  refine ⟨start,end_,⟨o,before inside,?_,opens⟩,?_,?_,⟨t,here,?_,rfl⟩,?_,?_,?_⟩
  · exact Finset.forall_mem_insert _ _ _ |>.mpr ⟨after o inside,first⟩
  · change ∃ u ∈ insert t ts, _ ∧ (if 0 < Rational.compare t.price.lowest c.high then t.price.lowest else c.high) = _
    rw [high]
    split_ifs with more
    · rw [(compares h inside_h).1] at more
      exact ⟨t,here,(Finset.forall_mem_insert _ _ _).mpr ⟨le_rfl,fun u member => (most u member).trans more.le⟩,rfl⟩
    · rw [(compares h inside_h).1,not_lt] at more
      exact ⟨h,before inside_h,(Finset.forall_mem_insert _ _ _).mpr ⟨more,most⟩,rfl⟩
  · change ∃ u ∈ insert t ts, _ ∧ (if Rational.compare t.price.lowest c.low < 0 then t.price.lowest else c.low) = _
    rw [low]
    split_ifs with less
    · rw [(compares l inside_l).2] at less
      exact ⟨t,here,(Finset.forall_mem_insert _ _ _).mpr ⟨le_rfl,fun u member => less.le.trans (least u member)⟩,rfl⟩
    · rw [(compares l inside_l).2,not_lt] at less
      exact ⟨l,before inside_l,(Finset.forall_mem_insert _ _ _).mpr ⟨less,least⟩,rfl⟩
  · exact (Finset.forall_mem_insert _ _ _).mpr ⟨Earlier.refl t,after⟩
  · rw [Finset.sum_insert new,add_comm,← base]
    rfl
  · rw [Finset.sum_insert new,add_comm,← quote_]
    rfl
  · rw [Finset.card_insert_of_notMem new,← count]
    rfl

theorem bucket_mono {u : MarketTrade} (earlier : Earlier locale u t) : bucket n u ≤ bucket n t :=
  Nat.div_le_div_right (Nat.floor_mono earlier.timestamp)

theorem start_eq (valid : Valid t) (some_ : 0 < n) (short : n < 2 ^ 53) :
    (t.timestamp / .finite n).floor * .finite n = .finite (bucket n t * n : ℕ) := by
  obtain ⟨m,time,safe⟩ := valid.timestamp
  have nonzero : (n : ℚ) ≠ 0 := by exact_mod_cast some_.ne'
  have quotient : (Double.finite (m : ℚ) / .finite (n : ℚ)) = Double.ofRat ((m : ℚ) / n) := if_neg nonzero
  have same : bucket n t = m / n := by rw [bucket,time,real,Nat.floor_natCast]
  have small : m / n * n < 2 ^ 53 := (Nat.div_mul_le_self m n).trans_lt safe
  rw [time,quotient,Double.floor_div_natCast safe some_ short,Double.finite_mul,← Nat.cast_mul,
    Double.ofRat_natCast small,same]

theorem step_eq {out : List Candle} (valid : Valid t) (some_ : 0 < n) (short : n < 2 ^ 53) :
    step (.finite n) out t = .ok ((current out (.finite (bucket n t * n : ℕ)) (.finite n) t.price.lowest).1 ++
      [(current out (.finite (bucket n t * n : ℕ)) (.finite n) t.price.lowest).2.add t t.price.lowest]) := by
  have start := start_eq valid some_ short
  obtain ⟨m,time,safe⟩ := valid.timestamp
  refine bind_eq_ok.mpr ⟨(),reject_eq_ok.mpr ?_,bind_eq_ok.mpr ⟨(),reject_eq_ok.mpr ?_,bind_eq_ok.mpr ⟨(),reject_eq_ok.mpr ?_,?_⟩⟩⟩
  · rw [time,isSafeInteger_natCast safe,Double.ofNat_eq,Double.finite_lt]
    simp
  · simp [Rational.valid,valid.price.1,valid.price.2]
  · simp [valid.amounts.1,valid.amounts.2]
  · dsimp only
    rw [start]
    exact bind_eq_ok.mpr ⟨_,Rational.canonical_eq valid.price.2,rfl⟩

theorem filter_other (other : k ≠ bucket n t) : (insert t ts).filter (bucket n · = k) = ts.filter (bucket n · = k) := by
  rw [Finset.filter_insert,if_neg other.symm]

theorem filter_own : (insert t ts).filter (bucket n · = bucket n t) = insert t (ts.filter (bucket n · = bucket n t)) := by
  rw [Finset.filter_insert,if_pos rfl]

/-- The candles of other buckets stay as they are. -/
theorem others_kept {ks : List ℕ} {out : List Candle} (other : ∀ k ∈ ks, k ≠ bucket n t)
    (candles : List.Forall₂ (fun k c => c.Of locale n k (ts.filter (bucket n · = k))) ks out) :
    List.Forall₂ (fun k c => c.Of locale n k ((insert t ts).filter (bucket n · = k))) ks out := by
  induction candles with
  | nil => exact .nil
  | cons of _ ih =>
    rw [List.forall_mem_cons] at other
    refine .cons ?_ (ih other.2)
    rwa [filter_other other.1]

theorem mem_buckets {ks : List ℕ} (known : ∀ k, k ∈ ks ↔ ∃ u ∈ ts, bucket n u = k) (k : ℕ) :
    (k = bucket n t ∨ k ∈ ks) ↔ ∃ u ∈ insert t ts, bucket n u = k := by
  rw [known,Finset.exists_mem_insert,eq_comm]

theorem grouped_new {out : List Candle} (grouped : Grouped locale n ts out) (later : ∀ u ∈ ts, bucket n u < bucket n t) :
    Grouped locale n (insert t ts) (out ++
      [(Candle.fresh (.finite (bucket n t * n : ℕ)) (.finite n) t.price.lowest).add t t.price.lowest]) := by
  obtain ⟨ks,ordered,known,candles⟩ := grouped
  have below : ∀ k ∈ ks, k < bucket n t := by
    intro k inside
    obtain ⟨u,member,rfl⟩ := (known k).mp inside
    exact later u member
  have none_ : ts.filter (bucket n · = bucket n t) = ∅ :=
    Finset.filter_eq_empty_iff.mpr fun u member => (later u member).ne
  refine ⟨ks ++ [bucket n t],?_,fun k => ?_,?_⟩
  · rw [List.pairwise_append]
    refine ⟨ordered,List.pairwise_singleton _ _,fun k inside j here => ?_⟩
    rw [List.mem_singleton.mp here]
    exact below k inside
  · rw [← mem_buckets known,List.mem_append,List.mem_singleton,or_comm]
  · apply List.rel_append (others_kept (fun k inside => (below k inside).ne) candles)
    refine .cons ?_ .nil
    rw [filter_own,none_,insert_empty_eq]
    exact Candle.Of.fresh t

/-- The last bucket is the only one that a later trade may belong to. -/
theorem grouped_last {out : List Candle} {c : Candle} (grouped : Grouped locale n ts (out ++ [c])) (new : t ∉ ts)
    (after : ∀ u ∈ ts, Earlier locale u t) :
    ∃ k, c.start = .finite (k * n : ℕ) ∧ (∀ u ∈ ts, bucket n u ≤ k) ∧ k ≤ bucket n t ∧
      (k = bucket n t → Grouped locale n (insert t ts) (out ++ [c.add t t.price.lowest])) := by
  obtain ⟨ks,ordered,known,candles⟩ := grouped
  obtain ⟨ks,last,rfl,front,tail⟩ : ∃ ks' last, ks = ks' ++ last ∧
      List.Forall₂ (fun k c => c.Of locale n k (ts.filter (bucket n · = k))) ks' out ∧
      List.Forall₂ (fun k c => c.Of locale n k (ts.filter (bucket n · = k))) last [c] :=
    ⟨_,_,(List.take_append_drop out.length ks).symm,List.forall₂_take_append _ _ _ candles,
      List.forall₂_drop_append _ _ _ candles⟩
  cases tail with
  | @cons k _ _ _ of rest =>
    cases rest
    rw [List.pairwise_append] at ordered
    have below : ∀ j ∈ ks, j < k := fun j inside => ordered.2.2 j inside k (.head _)
    obtain ⟨v,member,here⟩ := (known k).mp (List.mem_append_right _ (.head _))
    refine ⟨k,of.start,fun u inside => ?_,here ▸ bucket_mono (after v member),fun same => ?_⟩
    · rcases List.mem_append.mp ((known _).mpr ⟨u,inside,rfl⟩) with earlier | last
      · exact (below _ earlier).le
      · exact (List.mem_singleton.mp last).le
    · subst same
      refine ⟨ks ++ [bucket n t],List.pairwise_append.mpr ordered,fun k => ?_,?_⟩
      · rw [← mem_buckets known]
        exact (or_iff_right_of_imp fun same => same ▸ List.mem_append_right _ (.head _)).symm
      · apply List.rel_append (others_kept (fun k inside => (below k inside).ne) front)
        refine .cons ?_ .nil
        rw [filter_own]
        exact of.add (fun inside => new (Finset.mem_filter.mp inside).1) fun u inside => after u (Finset.mem_filter.mp inside).1

theorem step_grouped {out : List Candle} (some_ : 0 < n) (short : n < 2 ^ 53) (grouped : Grouped locale n ts out)
    (new : t ∉ ts) (after : ∀ u ∈ ts, Earlier locale u t) (valid : Valid t) :
    ∃ out', step (.finite n) out t = .ok out' ∧ Grouped locale n (insert t ts) out' := by
  rw [step_eq valid some_ short]
  refine ⟨_,rfl,?_⟩
  rcases List.eq_nil_or_concat' out with rfl | ⟨before,c,rfl⟩
  · obtain ⟨ks,ordered,known,candles⟩ := grouped
    cases candles
    refine grouped_new ⟨[],ordered,known,.nil⟩ fun u inside => ?_
    cases (known (bucket n u)).mpr ⟨u,inside,rfl⟩
  · obtain ⟨k,start,buckets,le,same⟩ := grouped_last grouped new after
    rw [current,List.getLast?_concat]
    dsimp only
    split_ifs with here
    · rw [start,Double.finite.injEq,Nat.cast_inj] at here
      rw [List.dropLast_concat]
      exact same (Nat.eq_of_mul_eq_mul_right some_ here)
    · have less : k < bucket n t := by
        apply le.lt_of_ne
        rintro rfl
        exact here start
      exact grouped_new grouped fun u inside => (buckets u inside).trans_lt less

theorem fold_grouped {trades : List MarketTrade} (some_ : 0 < n) (short : n < 2 ^ 53) (valid : ∀ t ∈ trades, Valid t)
    (distinct : trades.Nodup) (ordered : trades.Pairwise (Earlier locale)) :
    ∃ out, trades.foldlM (step (.finite n)) [] = .ok out ∧ Grouped locale n trades.toFinset out := by
  induction trades using List.reverseRecOn with
  | nil => exact ⟨[],rfl,[],.nil,by simp,.nil⟩
  | append_singleton earlier t ih =>
    obtain ⟨distinct,-,new⟩ := List.nodup_append.mp distinct
    obtain ⟨ordered,-,after⟩ := List.pairwise_append.mp ordered
    obtain ⟨out,done,grouped⟩ := ih (fun u inside => valid u (List.mem_append_left _ inside)) distinct ordered
    have same : (earlier ++ [t]).toFinset = insert t earlier.toFinset := by
      ext u
      simp
    obtain ⟨out',done',grouped'⟩ := step_grouped some_ short grouped
      (fun inside => new t (List.mem_toFinset.mp inside) t (.head _) rfl)
      (fun u inside => after u (List.mem_toFinset.mp inside) t (.head _))
      (valid t (List.mem_append_right _ (.head _)))
    refine ⟨out',?_,same ▸ grouped'⟩
    rw [List.foldlM_append,done]
    change (step (.finite n) out t >>= pure) = _
    rw [done']
    rfl

end Grouping

theorem aggregateCandles_grouped (locale : Collation) (trades : List MarketTrade) (told : Told locale trades) :
    (∀ trades', (∀ t, t ∈ trades' ↔ t ∈ trades) → ∀ interval,
      aggregateCandles locale trades' interval = aggregateCandles locale trades interval) ∧
    ∀ n : ℕ, 0 < n → n < 2 ^ 53 → ∃ out, aggregateCandles locale trades (.finite n) = .ok out ∧
      Grouped locale n trades.toFinset out := by
  constructor
  · intro trades' same interval
    rw [aggregateCandles,aggregateCandles,sorted_congr told same]
  · intro n some_ short
    obtain ⟨out,done,grouped⟩ := fold_grouped some_ short
      (fun t inside => told.valid t ((mem_sorted told t).mp inside)) (nodup_sorted locale trades) (pairwise_sorted told)
    have same : (sorted locale (unseen [] trades)).toFinset = trades.toFinset := by
      ext t
      rw [List.mem_toFinset,List.mem_toFinset,mem_sorted told]
    refine ⟨out,bind_eq_ok.mpr ⟨(),reject_eq_ok.mpr ?_,done⟩,same ▸ grouped⟩
    rw [isSafeInteger_natCast short,Double.ofNat_eq,Double.finite_le]
    simp [some_.ne']

namespace Sample

def early : MarketTrade := ⟨"a",.finite (61 : ℕ),⟨2,1⟩,1,2,5,.finite (0 : ℕ)⟩

def late : MarketTrade := ⟨"b",.finite (119 : ℕ),⟨6,2⟩,2,6,5,.finite (1 : ℕ)⟩

theorem told : Told .characters [early,late] := by
  have price (n : ℕ) (small : n < 2 ^ 53) : ∃ q, Double.finite n = .finite q ∧ Double.ofRat q = .finite q :=
    ⟨n,rfl,Double.ofRat_natCast small⟩
  refine ⟨?_,?_,?_⟩
  · rw [List.forall_mem_cons,List.forall_mem_singleton]
    exact ⟨⟨⟨61,rfl,by norm_num⟩,price 0 (by norm_num),by decide,by decide⟩,
      ⟨⟨119,rfl,by norm_num⟩,price 1 (by norm_num),by decide,by decide⟩⟩
  · decide
  · intro a first b second distinct
    left
    rw [Ne,position_eq]
    rintro ⟨same,-⟩
    simp only [List.mem_cons,List.not_mem_nil,or_false] at first second
    rcases first with rfl | rfl <;> rcases second with rfl | rfl
    · exact distinct rfl
    · norm_num [early,late,real] at same
    · norm_num [early,late,real] at same
    · exact distinct rfl

end Sample

open Sample in
theorem aggregateCandles_grouped_two :
    aggregateCandles .characters [late,early,late] (.finite (60 : ℕ)) =
      aggregateCandles .characters [early,late] (.finite (60 : ℕ)) ∧
    ∃ out, aggregateCandles .characters [early,late] (.finite (60 : ℕ)) = .ok out ∧
      Grouped .characters 60 [early,late].toFinset out := by
  obtain ⟨same,groups⟩ := aggregateCandles_grouped .characters [early,late] told
  exact ⟨same _ (by simp [or_comm]) _,groups 60 (by norm_num) (by norm_num)⟩

end RatifyOs.Market
