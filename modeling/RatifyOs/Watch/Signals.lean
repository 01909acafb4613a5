import RatifyOs.Data.JsValue
import RatifyOs.Data.Latest
import RatifyOs.Data.Table
import RatifyOs.Pools.Guards

/-! The trade tape, which keeps the latest trades of every mint, and the readings taken off it. -/
namespace RatifyOs.Watch
open Data
open Pools (RugHeat)

structure TapeTrade where
  mint : Utf16
  solAmount : Double
  isBuy : Bool
  /-- Whatever the frame names, which need not be a string. -/
  trader : JsValue
  ts : ℤ
  priceSol : Option Double

structure TokenSignals where
  mint : Utf16
  buys : ℕ
  sells : ℕ
  netSolFlow : Double
  volumeSol : Double
  uniqueBuyers : ℕ
  uniqueSellers : ℕ
  buyPressurePct : Double
  volumeWeightedBuyPressurePct : Double
  largestTradeSol : Double
  priceChangePct : Option Double
  lastPriceSol : Option Double
  trades : ℕ

section Tape

structure Ring where
  mint : Utf16
  trades : List TapeTrade

structure TradeTape where
  byMint : Table Ring.mint
  maxPerMint : Double

namespace TradeTape

def make (maxPerMint : Double) : TradeTape := ⟨.empty,.max 1 maxPerMint.floor⟩

/-- A copy of the buffer of a mint, oldest first. -/
def trades (tape : TradeTape) (mint : Utf16) : List TapeTrade := ((tape.byMint.find? mint).map (·.trades)).getD []

/-- A buffer keeps its place among the others; a mint's first trade makes one. -/
def addTrade (tape : TradeTape) (t : TapeTrade) : TradeTape :=
  let ring : Ring := ⟨t.mint,shiftTo tape.maxPerMint (tape.trades t.mint ++ [t])⟩
  { tape with byMint := if (tape.byMint.find? t.mint).isSome then tape.byMint.put ring else tape.byMint.upsert ring }

def mints (tape : TradeTape) : List Utf16 := tape.byMint.rows.map (·.mint)

/-- Total trades held across every mint. -/
def size (tape : TradeTape) : ℕ := (tape.byMint.rows.map (·.trades.length)).sum

@[simp] theorem trades_make (max : Double) (mint : Utf16) : (make max).trades mint = [] := rfl

@[simp] theorem maxPerMint_addTrade (tape : TradeTape) (t : TapeTrade) : (tape.addTrade t).maxPerMint = tape.maxPerMint :=
  rfl

theorem trades_addTrade (tape : TradeTape) (t : TapeTrade) (mint : Utf16) : (tape.addTrade t).trades mint =
    if t.mint = mint then latest (capacity tape.maxPerMint) (tape.trades mint ++ [t]) else tape.trades mint := by
  unfold addTrade
  dsimp only
  rw [trades]
  by_cases same : t.mint = mint
  · subst same
    rw [if_pos rfl,Latest.shiftTo_eq]
    cases found : tape.byMint.find? t.mint with
    | some ring =>
      rw [Option.isSome_some,if_pos rfl,Table.find?_put,if_pos rfl,found]
      rfl
    | none =>
      rw [Option.isSome_none,if_neg Bool.false_ne_true,Table.find?_upsert,if_pos rfl]
      rfl
  · rw [if_neg same]
    split
    · dsimp only
      rw [Table.find?_put_of_ne (by exact same),trades]
    · dsimp only
      rw [Table.find?_upsert,if_neg same,trades]

/-- The tape of a history: for every mint, the latest of its trades. -/
theorem trades_foldl (max : Double) (history : List TapeTrade) (mint : Utf16) :
    ((history.foldl addTrade (make max)).trades mint =
      latest (capacity (make max).maxPerMint) (history.filter fun t => t.mint = mint)) ∧
    (history.foldl addTrade (make max)).maxPerMint = (make max).maxPerMint := by
  induction history using List.reverseRecOn with
  | nil => exact ⟨(Latest.latest_nil _).symm,rfl⟩
  | append_singleton history t ih =>
    obtain ⟨same,bound⟩ := ih
    rw [List.foldl_append,List.foldl_cons,List.foldl_nil]
    refine ⟨?_,bound⟩
    rw [trades_addTrade,bound,same,List.filter_append]
    by_cases here : t.mint = mint
    · simp [here,Latest.latest_concat]
    · simp [here]

end TradeTape

end Tape

section Roll

def truthy : JsValue → Bool
  | .null | .other => false
  | .bool value => value
  | .num x => x ≠ 0 ∧ x ≠ .nan
  | .str s => s ≠ []
  | .arr _ | .obj _ => true

/-- Two primitive values that a `Set` takes for one; every frame has its own objects. -/
def samePrimitive : JsValue → JsValue → Bool
  | .bool a, .bool b => a = b
  | .num x, .num y => x = y
  | .str s, .str s' => s = s'
  | _, _ => false

/-- `if (trader) set.add(trader)` -/
def addTrader (seen : List JsValue) (trader : JsValue) : List JsValue :=
  if truthy trader ∧ ¬seen.any (samePrimitive trader) then seen ++ [trader] else seen

/-- What the loop over the buffer has gathered. -/
structure Gathered where
  buys : ℕ
  sells : ℕ
  buyVol : Double
  sellVol : Double
  largestTradeSol : Double
  buyers : List JsValue
  sellers : List JsValue
  /-- The latest and the earliest price, each with its time. -/
  last : Option (ℤ × Double)
  first : Option (ℤ × Double)

namespace Gathered

def none_ : Gathered := ⟨0,0,0,0,0,[],[],none,none⟩

def price (g : Gathered) (t : TapeTrade) : Gathered :=
  match t.priceSol with
  | none => g
  | some price => { g with
      last := if g.last.all fun last => last.1 ≤ t.ts then some (t.ts,price) else g.last
      first := if g.first.all fun first => t.ts ≤ first.1 then some (t.ts,price) else g.first }

def add (g : Gathered) (t : TapeTrade) : Gathered :=
  let g := if t.isBuy then { g with
      buys := g.buys + 1, buyVol := g.buyVol + t.solAmount, buyers := addTrader g.buyers t.trader }
    else { g with
      sells := g.sells + 1, sellVol := g.sellVol + t.solAmount, sellers := addTrader g.sellers t.trader }
  let g := if g.largestTradeSol < t.solAmount then { g with largestTradeSol := t.solAmount } else g
  g.price t

end Gathered

/-- The loop of `signals` over one buffer: trades older than the window are passed over. -/
def gather (cutoff : ℤ) (buf : List TapeTrade) : Gathered :=
  buf.foldl (fun g t => if t.ts < cutoff then g else g.add t) .none_

def priceChangePct (g : Gathered) : Option Double :=
  match g.first, g.last with
  | some (firstTs,firstPriceSol), some (lastTs,lastPriceSol) =>
    if 0 < firstPriceSol ∧ firstTs < lastTs then some ((lastPriceSol - firstPriceSol) / firstPriceSol * 100) else none
  | _, _ => none

/-- `signals` of a mint with this buffer. -/
def signalsOf (now : ℤ) (mint : Utf16) (windowMs : ℤ) (buf : List TapeTrade) : TokenSignals :=
  let g := gather (now - max 0 windowMs) buf
  let trades := g.buys + g.sells
  let volume := g.buyVol + g.sellVol
  { mint, trades
    buys := g.buys
    sells := g.sells
    netSolFlow := g.buyVol - g.sellVol
    volumeSol := volume
    uniqueBuyers := g.buyers.length
    uniqueSellers := g.sellers.length
    buyPressurePct := if 0 < trades then .finite g.buys / .finite trades * 100 else 0
    volumeWeightedBuyPressurePct := if 0 < volume then g.buyVol / volume * 100 else 0
    largestTradeSol := g.largestTradeSol
    priceChangePct := priceChangePct g
    lastPriceSol := g.last.map (·.2) }

def TradeTape.signals (tape : TradeTape) (now : ℤ) (mint : Utf16) (windowMs : ℤ) : TokenSignals :=
  signalsOf now mint windowMs (tape.trades mint)

end Roll

section Heat
variable (fixed : ℕ → Double → String) (s : TokenSignals)

/-- Points with the reason for them. -/
abbrev Tell := Option (ℕ × String)

def concentration : Tell :=
  if s.uniqueBuyers ≤ 1 then some (30,s!"only {s.uniqueBuyers} unique buyer(s)")
  else if s.uniqueBuyers ≤ 3 then some (18,s!"thin buyer base ({s.uniqueBuyers} unique buyers)")
  else if s.uniqueBuyers ≤ 6 then some (8,s!"modest buyer base ({s.uniqueBuyers} unique buyers)")
  else none

def imbalance : Tell :=
  let imbalance := (s.volumeWeightedBuyPressurePct - 50).abs
  if 40 ≤ imbalance then some (25,s!"extreme one-sided flow ({fixed 0 s.volumeWeightedBuyPressurePct}% buy volume)")
  else if 25 ≤ imbalance then some (12,s!"lopsided flow ({fixed 0 s.volumeWeightedBuyPressurePct}% buy volume)")
  else none

def divergence : Tell :=
  if 4 ≤ s.trades ∧ 60 ≤ s.buyPressurePct ∧ s.volumeWeightedBuyPressurePct ≤ 40 then
    some (18,s!"buy count high but sell SIZE dominates ({fixed 0 s.buyPressurePct}% buys vs " ++
      s!"{fixed 0 s.volumeWeightedBuyPressurePct}% buy volume)")
  else none

def dominance : Tell :=
  if 0 < s.volumeSol ∧ 3 ≤ s.trades ∧ .ofRat (4 / 5) ≤ s.largestTradeSol / s.volumeSol then
    some (12,s!"one trade is {fixed 0 (s.largestTradeSol / s.volumeSol * 100)}% of volume")
  else none

def outflow : Tell :=
  if s.netSolFlow < 0 ∧ 0 < s.volumeSol then
    let drainPct := -s.netSolFlow / s.volumeSol * 100
    let reason := s!"net SOL outflow ({fixed 0 drainPct}% of volume selling)"
    if 60 ≤ drainPct then some (25,reason) else if 30 ≤ drainPct then some (12,reason) else none
  else none

def thinVolume : Tell :=
  if s.volumeSol < 1 then some (20,s!"tiny volume ({fixed 3 s.volumeSol} SOL)")
  else if s.volumeSol < 5 then some (10,s!"low volume ({fixed 2 s.volumeSol} SOL)")
  else none

def exits : Tell :=
  if 3 ≤ s.uniqueSellers ∧ s.uniqueBuyers = 0 then some (15,"sellers active with no buyers") else none

/-- The tells that weigh, in the order they are looked for. -/
def tells : List (ℕ × String) :=
  [concentration s,imbalance fixed s,divergence fixed s,dominance fixed s,outflow fixed s,thinVolume fixed s,
    exits s].filterMap id

def heatOf : RugHeat :=
  if s.trades = 0 then ⟨60,["no trades in window — illiquid / inactive"]⟩
  else
    let found := tells fixed s
    let score : ℕ := min 100 (found.map (·.1)).sum
    ⟨.finite score,if found = [] then ["no strong rug tells in window"] else found.map (·.2)⟩

end Heat

def rugHeatScore (fixed : ℕ → Double → String) (tape : TradeTape) (now : ℤ) (mint : Utf16) (windowMs : ℤ) : RugHeat :=
  heatOf fixed (tape.signals now mint windowMs)

/-- The window of a reading that names none. -/
def WINDOW_MS : ℤ := 300000

end RatifyOs.Watch
