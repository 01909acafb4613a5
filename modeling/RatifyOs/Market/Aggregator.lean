import RatifyOs.Data.Double
import RatifyOs.Data.Grouping

/-! `MarketAggregator`: the pairs that two sources report as one market for each pair of
tokens. What the sources answer is an input. -/
namespace RatifyOs.Market
open Data

inductive Source where
  | blockscout
  | dexscreener
  | geckoterminal
  deriving DecidableEq

structure PairToken where
  address : String
  name : Option String
  symbol : Option String
  deriving DecidableEq

structure MarketPair (Raw : Type) where
  source : Source
  chainId : String
  dexId : Option String
  address : String
  baseToken : PairToken
  quoteToken : PairToken
  priceUsd : Option Double
  liquidityUsd : Option Double
  volume24hUsd : Option Double
  createdAt : Option Double
  raw : Raw
  deriving DecidableEq

/-- What a promise is rejected with. -/
inductive RejectionReason where
  | error (message : String)
  | other (text : String)

def RejectionReason.message : RejectionReason → String
  | .error message => message
  | .other text => text

structure AggregatedMarket (Raw : Type) extends MarketPair Raw where
  sources : List Source
  confidence : Double
  provenance : List (Source × MarketPair Raw)
  errors : List (Source × String)

def AggregatedMarket.pairs {Raw : Type} (m : AggregatedMarket Raw) : List (MarketPair Raw) := m.provenance.map (·.2)

namespace MarketAggregator

/-- `Math.max(...values)` -/
def maximum (values : List Double) : Double := values.foldl Double.max (.infinite true)

/-- `Math.min(...values)` -/
def minimum (values : List Double) : Double :=
  values.foldl (fun a b => if a = .nan ∨ b = .nan then .nan else if b < a then b else a) (.infinite false)

def mean (values : List Double) : Double := values.foldl (· + ·) 0 / .finite values.length

variable {Raw : Type}

def prices (ps : List (MarketPair Raw)) : List Double := ps.filterMap (·.priceUsd)

def spread (ps : List (MarketPair Raw)) : Double :=
  if (prices ps).length > 1 then (maximum (prices ps) - minimum (prices ps)) / mean (prices ps) else 1

def confidence (ps : List (MarketPair Raw)) : Double :=
  maximum [0,minimum [1,.ofRat (if ps.length > 1 then 17 / 20 else 11 / 20) - minimum [.ofRat (2 / 5),spread ps]]]

def aggregate (errors : List (Source × String)) (g : Group String (MarketPair Raw)) : AggregatedMarket Raw :=
  let ps := g.items
  { g.first with
    sources := (ps.map (·.source)).eraseDups
    priceUsd := if prices ps = [] then g.first.priceUsd else some (mean (prices ps))
    liquidityUsd := some (maximum (ps.map fun p => p.liquidityUsd.getD 0))
    volume24hUsd := some (maximum (ps.map fun p => p.volume24hUsd.getD 0))
    confidence := confidence ps
    provenance := ps.map fun p => (p.source,p)
    errors }

section Search
variable (toLowerCase : String → String) (dexscreener geckoterminal : Except RejectionReason (List (MarketPair Raw)))

def key (p : MarketPair Raw) : String :=
  toLowerCase (p.chainId ++ ":" ++ p.baseToken.address ++ ":" ++ p.quoteToken.address)

def fulfilled (settled : Except RejectionReason (List (MarketPair Raw))) : List (MarketPair Raw) :=
  settled.toOption.getD []

def rejected (source : Source) : Except RejectionReason (List (MarketPair Raw)) → List (Source × String)
  | .ok _ => []
  | .error reason => [(source,reason.message)]

def all : List (MarketPair Raw) := fulfilled dexscreener ++ fulfilled geckoterminal

def search : List (AggregatedMarket Raw) :=
  (Group.collect (key toLowerCase) (all dexscreener geckoterminal)).map
    (aggregate (rejected .dexscreener dexscreener ++ rejected .geckoterminal geckoterminal))

end Search

end MarketAggregator

/-! What the markets should be: base58 addresses are told apart by case, and those in hex
digits are not. -/

/-- `0x` and hex digits, as the chains that write addresses so do. -/
def HexAddress (address : String) : Prop :=
  ∃ digits, address.toList = '0' :: 'x' :: digits ∧ ∀ c ∈ digits, c.isDigit ∨ c.toLower ∈ ['a','b','c','d','e','f']

def lowered (text : String) : List Char := text.toList.map Char.toLower

def SameAddress (a b : String) : Prop := a = b ∨ HexAddress a ∧ HexAddress b ∧ lowered a = lowered b

variable {Raw : Type}

/-- The pairs name the same chain and the same two tokens on it. -/
structure MarketPair.Same (p q : MarketPair Raw) : Prop where
  chain : p.chainId = q.chainId
  base : SameAddress p.baseToken.address q.baseToken.address
  quote : SameAddress p.quoteToken.address q.quoteToken.address

namespace MarketAggregator

/-- The markets part the pairs by what they name, and the numbers of a market are of its
own pairs. -/
structure Partition (all : List (MarketPair Raw)) (markets : List (AggregatedMarket Raw)) : Prop where
  once : (markets.flatMap AggregatedMarket.pairs).Perm all
  apart : markets.Pairwise fun m n => ∀ p ∈ m.pairs, p ∉ n.pairs
  same : ∀ p ∈ all, ∀ q ∈ all, (∃ m ∈ markets, p ∈ m.pairs ∧ q ∈ m.pairs) ↔ p.Same q
  own : ∀ m ∈ markets, m.confidence = confidence m.pairs ∧
    m.liquidityUsd = some (maximum (m.pairs.map fun p => p.liquidityUsd.getD 0)) ∧
    m.priceUsd = if prices m.pairs = [] then none else some (mean (prices m.pairs))

@[simp] theorem pairs_aggregate (errors : List (Source × String)) (g : Group String (MarketPair Raw)) :
    (aggregate errors g).pairs = g.items := by
  simp [AggregatedMarket.pairs,aggregate,Function.comp_def]

theorem aggregate_own (errors : List (Source × String)) (g : Group String (MarketPair Raw)) :
    (aggregate errors g).confidence = confidence g.items ∧
      (aggregate errors g).liquidityUsd = some (maximum (g.items.map fun p => p.liquidityUsd.getD 0)) ∧
      (aggregate errors g).priceUsd = if prices g.items = [] then none else some (mean (prices g.items)) := by
  refine ⟨rfl,rfl,?_⟩
  by_cases none_ : prices g.items = []
  · have absent : g.first.priceUsd = none := List.filterMap_eq_nil_iff.mp none_ g.first (.head _)
    simp only [aggregate,none_,if_true,absent]
  · simp only [aggregate,none_,if_false]

/-- Letters of ASCII that differ in case are alike to `toLowerCase`. -/
def Lowers (toLowerCase : String → String) : Prop := ∀ s t : String, lowered s = lowered t → toLowerCase s = toLowerCase t

theorem SameAddress.lowered {a b : String} (same : SameAddress a b) : lowered a = lowered b := by
  obtain rfl | ⟨_,_,same⟩ := same
  · rfl
  · exact same

theorem key_of_lowered {toLowerCase : String → String} (lowers : Lowers toLowerCase) {p q : MarketPair Raw}
    (chain : p.chainId = q.chainId) (base : lowered p.baseToken.address = lowered q.baseToken.address)
    (quote_ : lowered p.quoteToken.address = lowered q.quoteToken.address) : key toLowerCase p = key toLowerCase q := by
  apply lowers
  simp only [lowered] at base quote_
  simp only [lowered,String.toList_append,List.map_append,chain,base,quote_]

theorem key_of_same {toLowerCase : String → String} (lowers : Lowers toLowerCase) {p q : MarketPair Raw}
    (same : p.Same q) : key toLowerCase p = key toLowerCase q :=
  key_of_lowered lowers same.chain (SameAddress.lowered same.base) (SameAddress.lowered same.quote)

section Search
variable (toLowerCase : String → String) (dexscreener geckoterminal : Except RejectionReason (List (MarketPair Raw)))

theorem search_together {p q : MarketPair Raw} (first : p ∈ all dexscreener geckoterminal)
    (second : q ∈ all dexscreener geckoterminal) :
    (∃ m ∈ search toLowerCase dexscreener geckoterminal, p ∈ m.pairs ∧ q ∈ m.pairs) ↔
      key toLowerCase p = key toLowerCase q := by
  rw [← Group.together_iff (key toLowerCase) first second]
  simp only [search,List.mem_map,exists_exists_and_eq_and,pairs_aggregate]

/-- The markets are a partition exactly when no two pairs that differ in what they name have
one text `chain:base:quote` in lower case. -/
theorem search_partition_iff (lowers : Lowers toLowerCase) :
    Partition (all dexscreener geckoterminal) (search toLowerCase dexscreener geckoterminal) ↔
      ∀ p ∈ all dexscreener geckoterminal, ∀ q ∈ all dexscreener geckoterminal,
        key toLowerCase p = key toLowerCase q → p.Same q := by
  constructor
  · intro partition p first q second one
    exact (partition.same p first q second).mp
      ((search_together toLowerCase dexscreener geckoterminal first second).mpr one)
  · intro apart
    constructor
    · simp only [search,List.flatMap_map,pairs_aggregate]
      exact Group.items_perm (key toLowerCase) _
    · refine List.pairwise_map.mpr ?_
      simp only [pairs_aggregate]
      exact Group.pairwise_disjoint (key toLowerCase) _
    · intro p first q second
      rw [search_together toLowerCase dexscreener geckoterminal first second]
      exact ⟨apart p first q second,key_of_same lowers⟩
    · intro m inside
      obtain ⟨g,_,rfl⟩ := List.mem_map.mp inside
      rw [pairs_aggregate]
      exact aggregate_own _ g

end Search

/-! A token on Solana and a text that differs from its address in the case of one letter. -/
namespace Sample

def pair (base : String) : MarketPair Unit where
  source := .dexscreener
  chainId := "solana"
  dexId := none
  address := "pair"
  baseToken := ⟨base,none,none⟩
  quoteToken := ⟨"So11111111111111111111111111111111111111112",none,none⟩
  priceUsd := some 1
  liquidityUsd := none
  volume24hUsd := none
  createdAt := none
  raw := ()

def usdc : String := "EPjFWdd5AufqSSqeM2qN1xzybapC8G4wEGGkZwyTDt1v"

def other : String := "EPjFWdd5AufqSSqeM2qN1xzybapC8G4wEGGkZwyTDt1V"

def toLowerCase (text : String) : String := String.ofList (lowered text)

theorem lowers : Lowers toLowerCase := fun _ _ same => congrArg String.ofList same

end Sample

open Sample in
theorem search_partition_single :
    Partition (all (.ok [pair usdc]) (.ok [pair usdc])) (search toLowerCase (.ok [pair usdc]) (.ok [pair usdc])) := by
  apply (search_partition_iff toLowerCase (.ok [pair usdc]) (.ok [pair usdc]) lowers).mpr
  intro p first q second _
  have one : ∀ p ∈ all (.ok [pair usdc]) (.ok [pair usdc]), p = pair usdc := by simp [all,fulfilled,Except.toOption]
  rw [one p first,one q second]
  exact ⟨rfl,.inl rfl,.inl rfl⟩

open Sample in
/-- Two mints in one market. -/
theorem search_mixed : ¬∀ dexscreener geckoterminal : Except RejectionReason (List (MarketPair Unit)),
    Partition (all dexscreener geckoterminal) (search toLowerCase dexscreener geckoterminal) := by
  intro partition
  have one : key toLowerCase (pair usdc) = key toLowerCase (pair other) := key_of_lowered lowers rfl (by decide) rfl
  have first : pair usdc ∈ all (.ok [pair usdc,pair other]) (.ok []) := List.mem_cons_self
  have second : pair other ∈ all (.ok [pair usdc,pair other]) (.ok []) := List.mem_cons_of_mem _ List.mem_cons_self
  have same := ((partition (.ok [pair usdc,pair other]) (.ok [])).same _ first _ second).mp
    ((search_together toLowerCase _ _ first second).mpr one)
  obtain equal | ⟨⟨digits,hex,_⟩,_⟩ := same.base
  · exact absurd equal (by decide)
  · exact absurd (List.cons.inj hex).1 (by decide)

end MarketAggregator

end RatifyOs.Market
