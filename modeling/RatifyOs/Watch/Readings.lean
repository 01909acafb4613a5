import RatifyOs.Data.Rounding
import RatifyOs.Watch.Connection
import RatifyOs.Pools.CurveBuy

/-! What a reading of the engine says of the frames that the feed has received: the guard in front
of the bonding curve lets a buy through only for a mint that somebody was seen buying. -/
namespace RatifyOs.Watch
open Data

namespace SignalsFeed
variable {s : SignalsFeed}

/-- The trade that an event brings, if it is a frame of the current socket, open, that reads as one. -/
def accepted (s : SignalsFeed) : Moment × Event → Option TapeTrade
  | (m,.message g data) =>
    if s.watcher.ws = some g ∧ (s.watcher.sockets g).readyState = .open_ then
      match route m.now data with
      | some (.trade t) => some t
      | _ => none
    else none
  | _ => none

/-- The trades accepted in a run, in their order. -/
def heard : SignalsFeed → List (Moment × Event) → List TapeTrade
  | _, [] => []
  | s, event :: events => (s.accepted event).toList ++ heard (s.step event) events

section Tape

theorem tape_autoFollow (s : SignalsFeed) (mint : Utf16) : (s.autoFollow mint).tape = s.tape := by
  unfold autoFollow
  split
  · rfl
  · split <;> rfl

/-- Nothing but an accepted trade is written to the tape. -/
theorem tape_step (steady : s.Steady) (event : Moment × Event) :
    (s.step event).tape = (s.accepted event).toList.foldl TradeTape.addTrade s.tape := by
  obtain ⟨m,event⟩ := event
  cases event with
  | start => rw [SignalsFeed.step,start]; split <;> rfl
  | stop => rw [SignalsFeed.step,stop]; split <;> rfl
  | watch mint => rw [SignalsFeed.step,watch]; split <;> rfl
  | opened g => rw [SignalsFeed.step]; split <;> rfl
  | message g data =>
    have mine : (s.watcher.sockets g).readyState = .open_ ∧ s.watcher.Mine g ↔
        s.watcher.ws = some g ∧ (s.watcher.sockets g).readyState = .open_ := by
      constructor
      · rintro ⟨opened,_⟩
        exact ⟨steady.sound.live g (.inr opened),opened⟩
      · rintro ⟨found,opened⟩
        exact ⟨opened,(steady.sound.current g found).1,(steady.of_ws found).2⟩
    rw [SignalsFeed.step,accepted]
    by_cases current : s.watcher.ws = some g ∧ (s.watcher.sockets g).readyState = .open_
    · rw [if_pos (mine.mpr current),if_pos current]
      unfold onMessage
      dsimp only
      cases route m.now data with
      | none => rfl
      | some routed =>
        cases routed with
        | trade t => rfl
        | newToken mint =>
          dsimp only
          rw [tape_autoFollow]
          rfl
    · rw [if_neg fun both => current (mine.mp both),if_neg current]
      rfl
  | closing g => rw [SignalsFeed.step]; split <;> rfl
  | closed g => rw [SignalsFeed.step]; split <;> rfl
  | reconnect => rw [SignalsFeed.step]; split <;> rfl
  | watchdog => rw [SignalsFeed.step]; split <;> rfl

theorem tape_run (steady : s.Steady) (events : List (Moment × Event)) :
    (Run.run step s events).tape = (heard s events).foldl TradeTape.addTrade s.tape := by
  induction events generalizing s with
  | nil => rfl
  | cons event events ih =>
    rw [heard,List.foldl_append,← tape_step steady]
    exact ih (steady.step event)

theorem trades_after (options : SignalsFeedOptions) (events : List (Moment × Event)) (mint : Utf16) :
    (after options events).tape.trades mint =
      latest (capacity (.max 1 (options.maxPerMint.getD 500).floor))
        ((heard (make options) events).filter fun t => t.mint = mint) := by
  rw [after,tape_run (steady_make options)]
  exact (TradeTape.trades_foldl _ _ mint).1

theorem accepted_eq_some {event : Moment × Event} {t : TapeTrade} (found : s.accepted event = some t) :
    ∃ m g data, event = (m,.message g data) ∧ route m.now data = some (.trade t) ∧ s.watcher.ws = some g ∧
      (s.watcher.sockets g).readyState = .open_ := by
  obtain ⟨m,event⟩ := event
  cases event with
  | message g data =>
    rw [accepted] at found
    split at found
    · rename_i current
      split at found
      · rename_i routed
        cases found
        exact ⟨m,g,data,rfl,routed,current⟩
      · cases found
    · cases found
  | start | stop | watch | opened | closing | closed | reconnect | watchdog => cases found

theorem heard_source {events : List (Moment × Event)} {t : TapeTrade} (inside : t ∈ heard s events) :
    ∃ before m g data rest, events = before ++ (m,.message g data) :: rest ∧ route m.now data = some (.trade t) ∧
      (Run.run step s before).watcher.ws = some g ∧
      ((Run.run step s before).watcher.sockets g).readyState = .open_ := by
  induction events generalizing s with
  | nil => cases inside
  | cons event events ih =>
    rw [heard,List.mem_append,Option.mem_toList] at inside
    rcases inside with first | later
    · obtain ⟨m,g,data,rfl,routed,current⟩ := accepted_eq_some first
      exact ⟨[],m,g,data,events,rfl,routed,current⟩
    · obtain ⟨before,m,g,data,rest,rfl,routed,current⟩ := ih later
      exact ⟨event :: before,m,g,data,rest,rfl,routed,current⟩

/-- For every mint the tape holds the latest of the trades accepted, in their order, and each of
them came in a frame of the current socket, open, while the feed was started: not from a socket
that had been given up, nor after a stop. -/
theorem tape_holds_latest (options : SignalsFeedOptions) (events : List (Moment × Event)) :
    (∀ mint, (after options events).tape.trades mint =
      latest (capacity (.max 1 (options.maxPerMint.getD 500).floor))
        ((heard (make options) events).filter fun t => t.mint = mint)) ∧
    ∀ t ∈ heard (make options) events, ∃ before m g data rest, events = before ++ (m,.message g data) :: rest ∧
      route m.now data = some (.trade t) ∧ (after options before).started = true ∧
      (after options before).watcher.ws = some g ∧ ((after options before).watcher.sockets g).readyState = .open_ := by
  refine ⟨trades_after options events,fun t inside => ?_⟩
  obtain ⟨before,m,g,data,rest,split,routed,found,opened⟩ := heard_source inside
  exact ⟨before,m,g,data,rest,split,routed,((steady_after options before).of_ws found).1,found,opened⟩

end Tape

section Frames

/-- A trade has a mint and a finite size, and the time of its frame. -/
theorem route_trade {now : ℤ} {data : Text} {t : TapeTrade} (found : route now data = some (.trade t)) :
    t.ts = now ∧ ∃ q, t.solAmount = .finite q ∧ 0 ≤ q := by
  unfold route at found
  split at found
  · dsimp only at found
    split at found
    · cases found
    · split at found
      · cases found
      · rw [Option.bind_eq_bind,Option.bind_eq_some_iff] at found
        obtain ⟨solAmount,_,found⟩ := found
        split at found
        · cases found
        · rename_i sized
          rw [not_or,not_not] at sized
          have size : ∃ q, solAmount = .finite q ∧ 0 ≤ q := by
            cases solAmount with
            | finite q => exact ⟨q,rfl,not_lt.mp fun less => sized.2 (Double.finite_lt.mpr less)⟩
            | infinite n => cases sized.1
            | nan => cases sized.1
          split at found
          · rw [Option.bind_eq_bind,Option.bind_eq_some_iff] at found
            obtain ⟨priceSol,_,found⟩ := found
            cases found
            exact ⟨rfl,size⟩
          · rw [Option.bind_eq_bind,Option.bind_eq_some_iff] at found
            obtain ⟨priceSol,_,found⟩ := found
            cases found
            exact ⟨rfl,size⟩
    · cases found
    · cases found
  · cases found

theorem accepted_trade {event : Moment × Event} {t : TapeTrade} (found : s.accepted event = some t) :
    t.ts = event.1.now ∧ ∃ q, t.solAmount = .finite q ∧ 0 ≤ q := by
  obtain ⟨m,g,data,rfl,routed,_⟩ := accepted_eq_some found
  exact route_trade routed

theorem heard_trade {events : List (Moment × Event)} {t : TapeTrade} (inside : t ∈ heard s events) :
    (∃ event ∈ events, t.ts = event.1.now) ∧ ∃ q, t.solAmount = .finite q ∧ 0 ≤ q := by
  induction events generalizing s with
  | nil => cases inside
  | cons event events ih =>
    rw [heard,List.mem_append,Option.mem_toList] at inside
    rcases inside with first | later
    · obtain ⟨time,amount⟩ := accepted_trade first
      exact ⟨⟨event,.head _,time⟩,amount⟩
    · obtain ⟨⟨other,found,time⟩,amount⟩ := ih later
      exact ⟨⟨other,.tail _ found,time⟩,amount⟩

end Frames

end SignalsFeed

section Window

theorem gather_eq (cutoff : ℤ) (buf : List TapeTrade) :
    gather cutoff buf = (buf.filter fun t => cutoff ≤ t.ts).foldl Gathered.add .none_ := by
  rw [gather,List.foldl_filter]
  congr 1
  funext g t
  by_cases old : t.ts < cutoff
  · rw [if_pos old,if_neg (by simpa using old)]
  · rw [if_neg old,if_pos (by simpa using old)]

end Window

section Selling
open Double (finite infinite ofRat)

/-- A size, or a sum of sizes that may have overflowed. -/
def Size (x : Double) : Prop := (∃ q, x = finite q ∧ 0 ≤ q) ∨ x = infinite false

theorem Size.of_ofRat {q : ℚ} (nonneg : 0 ≤ q) : Size (ofRat q) := by
  have rounded := Double.magnitude_nonneg nonneg
  by_cases below : Double.magnitude q < Double.limit
  · exact .inl ⟨_,Double.ofRat_of_lt nonneg below,rounded⟩
  · refine .inr ?_
    rw [ofRat,Double.rounded_nonneg nonneg,if_pos (not_lt.mp below)]

theorem Size.add {x y : Double} (size : Size x) (size' : Size y) : Size (x + y) := by
  rcases size with ⟨p,rfl,low⟩ | rfl
  · rcases size' with ⟨q,rfl,low'⟩ | rfl
    · exact Size.of_ofRat (add_nonneg low low')
    · exact .inr rfl
  · rcases size' with ⟨q,rfl,_⟩ | rfl
    · exact .inr rfl
    · exact .inr rfl

/-- Nobody has been seen buying. -/
structure Gathered.OnlySells (g : Gathered) : Prop where
  buys : g.buys = 0
  buyVol : g.buyVol = 0
  buyers : g.buyers = []
  sellVol : Size g.sellVol

theorem Gathered.OnlySells.add {g : Gathered} (only : g.OnlySells) {t : TapeTrade} (sell : t.isBuy = false)
    (size : ∃ q, t.solAmount = finite q ∧ 0 ≤ q) : (g.add t).OnlySells := by
  have kept : ∀ g' : Gathered, g'.OnlySells → (g'.price t).OnlySells := fun g' only => by
    unfold Gathered.price
    split
    · exact only
    · exact ⟨only.buys,only.buyVol,only.buyers,only.sellVol⟩
  have sum : Size (g.sellVol + t.solAmount) := only.sellVol.add (.inl size)
  simp only [Gathered.add,sell,Bool.false_eq_true,if_false]
  refine kept _ ?_
  split <;> exact ⟨only.buys,only.buyVol,only.buyers,sum⟩

theorem gather_onlySells (cutoff : ℤ) {buf : List TapeTrade}
    (sells : ∀ t ∈ buf, cutoff ≤ t.ts → t.isBuy = false) (sizes : ∀ t ∈ buf, ∃ q, t.solAmount = finite q ∧ 0 ≤ q) :
    (gather cutoff buf).OnlySells := by
  rw [gather_eq]
  refine List.foldlRecOn _ _ ⟨rfl,rfl,rfl,.inl ⟨0,rfl,le_rfl⟩⟩ fun g only t inside => ?_
  obtain ⟨inside,recent⟩ := List.mem_filter.mp inside
  exact only.add (sells t inside (of_decide_eq_true recent)) (sizes t inside)

def points (tell : Tell) : ℕ := (tell.map (·.1)).getD 0

theorem points_sum (tells : List Tell) : ((tells.filterMap id).map (·.1)).sum = (tells.map points).sum := by
  induction tells with
  | nil => rfl
  | cons tell tells ih =>
    cases tell with
    | none => simpa [points] using ih
    | some tell => simpa [points] using ih

/-- The signals of a mint that nobody has been seen buying. -/
structure Sold (s : TokenSignals) (volume : ℚ) : Prop where
  uniqueBuyers : s.uniqueBuyers = 0
  nonneg : 0 ≤ volume
  volumeSol : s.volumeSol = finite volume
  netSolFlow : s.netSolFlow = finite (-volume)
  pressure : s.volumeWeightedBuyPressurePct = finite 0

theorem ofRat_zero : ofRat 0 = finite 0 := Double.ofRat_natCast (n := 0) (by norm_num)

theorem sold {now : ℤ} {mint : Utf16} {windowMs : ℤ} {buf : List TapeTrade}
    (only : (gather (now - max 0 windowMs) buf).OnlySells)
    (bounded : (signalsOf now mint windowMs buf).volumeSol ≠ infinite false) :
    ∃ volume, Sold (signalsOf now mint windowMs buf) volume := by
  obtain ⟨g,same⟩ : ∃ g, g = gather (now - max 0 windowMs) buf := ⟨_,rfl⟩
  have volumeSol : (signalsOf now mint windowMs buf).volumeSol = g.buyVol + g.sellVol := by rw [same]; rfl
  have netSolFlow : (signalsOf now mint windowMs buf).netSolFlow = g.buyVol - g.sellVol := by rw [same]; rfl
  have pressure : (signalsOf now mint windowMs buf).volumeWeightedBuyPressurePct =
      if 0 < g.buyVol + g.sellVol then g.buyVol / (g.buyVol + g.sellVol) * 100 else 0 := by rw [same]; rfl
  have buyers : (signalsOf now mint windowMs buf).uniqueBuyers = g.buyers.length := by rw [same]; rfl
  rw [← same] at only
  rw [volumeSol] at bounded
  rw [only.buyVol] at volumeSol netSolFlow pressure bounded
  rcases only.sellVol with ⟨q,total,nonneg⟩ | total
  · rw [total] at volumeSol netSolFlow pressure bounded
    have sum : (0 : Double) + finite q = ofRat q := congrArg ofRat (zero_add q)
    rcases Size.of_ofRat nonneg with ⟨volume,rounded,low⟩ | overflows
    · refine ⟨volume,by rw [buyers,only.buyers]; rfl,low,by rw [volumeSol,sum,rounded],?_,?_⟩
      · have difference : (0 : Double) - finite q = (ofRat q).neg := by
          rw [← Double.ofRat_neg,← zero_add (-q)]
          rfl
        rw [netSolFlow,difference,rounded]
        rfl
      · rw [pressure,sum,rounded]
        split
        · rename_i positive
          have some_ : volume ≠ 0 := (Double.finite_lt.mp positive).ne'
          have share : (0 : Double) / finite volume = finite 0 := by
            change (if volume = 0 then _ else ofRat (0 / volume)) = finite 0
            rw [if_neg some_,zero_div,ofRat_zero]
          rw [share]
          change ofRat (0 * 100) = finite 0
          rw [zero_mul,ofRat_zero]
        · rfl
    · exact absurd (sum.trans overflows) bounded
  · rw [total] at bounded
    exact absurd rfl bounded

theorem imbalance_sold (fixed : ℕ → Double → String) {s : TokenSignals} {volume : ℚ} (sold : Sold s volume) :
    points (imbalance fixed s) = 25 := by
  have far : (s.volumeWeightedBuyPressurePct - 50).abs = finite 50 := by
    have half : ofRat ((50 : ℕ) : ℚ) = finite (50 : ℕ) := Double.ofRat_natCast (by norm_num)
    have below : ofRat (-(50 : ℕ)) = finite (-50) := by
      rw [Double.ofRat_neg,half]
      rfl
    rw [sold.pressure]
    change (ofRat (0 + -50)).abs = finite 50
    rw [zero_add,show (-50 : ℚ) = -(50 : ℕ) by norm_num,below,Double.abs]
    norm_num
  have extreme : (40 : Double) ≤ finite 50 := Double.finite_le.mpr (by norm_num)
  rw [imbalance,far,if_pos extreme]
  rfl

theorem outflow_sold (fixed : ℕ → Double → String) {s : TokenSignals} {volume : ℚ} (sold : Sold s volume) :
    20 ≤ points (outflow fixed s) + points (thinVolume fixed s) := by
  rcases sold.nonneg.eq_or_lt with none_ | positive
  · have thin : s.volumeSol < 1 := by
      rw [sold.volumeSol,← none_]
      exact Double.finite_lt.mpr (by norm_num)
    rw [thinVolume,if_pos thin]
    exact Nat.le_add_left _ _
  · have drained : -s.netSolFlow / s.volumeSol * 100 = finite 100 := by
      have one : ofRat ((1 : ℕ) : ℚ) = finite (1 : ℕ) := Double.ofRat_natCast (by norm_num)
      have hundred : ofRat ((100 : ℕ) : ℚ) = finite (100 : ℕ) := Double.ofRat_natCast (by norm_num)
      rw [sold.netSolFlow,sold.volumeSol]
      have share : -finite (-volume) / finite volume = finite 1 := by
        change (if volume = 0 then _ else ofRat (- -volume / volume)) = finite 1
        rw [if_neg positive.ne',neg_neg,div_self positive.ne']
        exact_mod_cast one
      rw [share]
      change ofRat (1 * 100) = finite 100
      rw [one_mul]
      exact_mod_cast hundred
    have selling : s.netSolFlow < 0 ∧ 0 < s.volumeSol := by
      rw [sold.netSolFlow,sold.volumeSol]
      exact ⟨Double.finite_lt.mpr (neg_lt_zero.mpr positive),Double.finite_lt.mpr positive⟩
    have most : (60 : Double) ≤ finite 100 := Double.finite_le.mpr (by norm_num)
    rw [outflow,if_pos selling,drained]
    dsimp only
    rw [if_pos most]
    exact Nat.le_add_right_of_le (show 20 ≤ 25 by decide)

/-- Sellers alone are hot, however many they are. -/
theorem heatOf_sold (fixed : ℕ → Double → String) {s : TokenSignals} {volume : ℚ} (sold : Sold s volume) :
    60 ≤ (heatOf fixed s).score := by
  unfold heatOf
  split
  · exact Double.finite_le.mpr le_rfl
  · have first : points (concentration s) = 30 := by
      rw [concentration,sold.uniqueBuyers]
      rfl
    have second := imbalance_sold fixed sold
    have third := outflow_sold fixed sold
    have sum : 60 ≤ ((tells fixed s).map (·.1)).sum := by
      rw [tells,points_sum]
      simp only [List.map_cons,List.map_nil,List.sum_cons,List.sum_nil]
      omega
    have least : 60 ≤ min 100 ((tells fixed s).map (·.1)).sum := le_min (by decide) sum
    exact Double.finite_le.mpr (Nat.ofNat_le_cast.mpr least)

end Selling

section Guard
open Pools

/-- A buy that is built has passed the rug-heat guard. -/
theorem guardRugHeat_of_built {env : CurveEnv} {ownerWallet : String} {cfg : BuyConfig} {built : BuiltIntent}
    (ok : buildCurveBuy env ownerWallet cfg = .ok (.inl built)) :
    guardRugHeat env.numberText env.guards (env.readRugHeat cfg.mint) = none := by
  obtain ⟨curve,_,bought⟩ := buildCurveBuy_ok ok
  simp only [buyOnCurve,Data.Result.bind_eq_ok] at bought
  obtain ⟨_,_,_,guarded,_⟩ := bought
  rw [throwRefusal_ok,guardCurveBuy,first_eq_none] at guarded
  exact guarded _ (.tail _ (.head _))

theorem score_of_guard {numberText : Double → String} {cfg : PoolGuardConfig} {heat : RugHeat}
    (passed : guardRugHeat numberText cfg (some heat) = none) : ¬cfg.maxRugHeat ≤ heat.score := by
  rw [guardRugHeat] at passed
  cases finite : heat.score.isFinite with
  | false =>
    simp only [Option.filter,finite] at passed
    cases passed
  | true =>
    simp only [Option.filter,finite] at passed
    exact refusal_eq_none.mp passed

/-- With a threshold of at most 60, a buy on the bonding curve is built only for a mint that the
feed has seen bought within the window, on a socket that was the current one and open: a feed that
was never started, that is stopped or cut off, or that has seen nothing but sales refuses it. -/
theorem curve_buy_observed (fixed : ℕ → Double → String) (options : SignalsFeedOptions)
    (events : List (Moment × SignalsFeed.Event)) (now : ℤ) (env : CurveEnv) (ownerWallet : String) (cfg : BuyConfig)
    (built : BuiltIntent)
    (reads : env.readRugHeat cfg.mint = some
      (rugHeatScore fixed (SignalsFeed.after options events).tape now (Utf16.ofString cfg.mint) WINDOW_MS))
    (threshold : env.guards.maxRugHeat ≤ 60)
    (bounded : ((SignalsFeed.after options events).tape.signals now (Utf16.ofString cfg.mint) WINDOW_MS).volumeSol ≠
      .infinite false)
    (ok : buildCurveBuy env ownerWallet cfg = .ok (.inl built)) :
    ∃ t ∈ SignalsFeed.heard (.make options) events,
      t.mint = Utf16.ofString cfg.mint ∧ t.isBuy = true ∧ now - WINDOW_MS ≤ t.ts := by
  by_contra unseen
  obtain ⟨trades,same⟩ : ∃ trades, trades = (SignalsFeed.after options events).tape.trades (Utf16.ofString cfg.mint) :=
    ⟨_,rfl⟩
  have kept : ∀ t ∈ trades, t ∈ SignalsFeed.heard (.make options) events ∧ t.mint = Utf16.ofString cfg.mint := by
    intro t inside
    rw [same,SignalsFeed.trades_after] at inside
    obtain ⟨found,here⟩ := List.mem_filter.mp ((Latest.latest_suffix _ _).subset inside)
    exact ⟨found,of_decide_eq_true here⟩
  have sells : ∀ t ∈ trades, now - max 0 WINDOW_MS ≤ t.ts → t.isBuy = false := fun t inside recent => by
    by_contra buy
    exact unseen ⟨t,(kept t inside).1,(kept t inside).2,by simpa using buy,recent⟩
  have only := gather_onlySells _ sells fun t inside => (SignalsFeed.heard_trade (kept t inside).1).2
  rw [TradeTape.signals,← same] at bounded
  obtain ⟨volume,sold⟩ := sold only bounded
  have passed := guardRugHeat_of_built ok
  rw [reads,rugHeatScore,TradeTape.signals,← same] at passed
  exact score_of_guard passed (Double.le_trans threshold (heatOf_sold fixed sold))

namespace Sample

def moment (now : ℤ) : Moment := ⟨now,1 / 2,true,by norm_num⟩

def frame : Text := "\x7b\"mint\":\"mint\",\"txType\":\"buy\",\"solAmount\":6\x7d".toList

def bought : List (Moment × SignalsFeed.Event) := [(moment 0,.start),(moment 1,.opened 1),(moment 2,.message 1 frame)]

def env : CurveEnv := { Pools.Sample.buyEnv with
  readRugHeat := fun mint => some
    (rugHeatScore (fun _ _ => "") (SignalsFeed.after ⟨none,none⟩ bought).tape 3 (Utf16.ofString mint) WINDOW_MS) }

theorem curve_buy_seen : ∃ t ∈ SignalsFeed.heard (.make ⟨none,none⟩) bought,
    t.mint = Utf16.ofString "mint" ∧ t.isBuy = true ∧ 3 - WINDOW_MS ≤ t.ts := by
  have made : Pools.Sample.inputOf (buildCurveBuy env "wallet" ⟨"mint",.finite (1 / 4),none⟩) = some 252499998 := by
    decide +kernel
  obtain ⟨built,ok,_⟩ := Pools.Sample.of_inputOf made
  exact curve_buy_observed (fun _ _ => "") ⟨none,none⟩ bought 3 env "wallet" ⟨"mint",.finite (1 / 4),none⟩ built rfl
    (Double.finite_le.mpr le_rfl) (by decide +kernel) ok

end Sample

end Guard

end RatifyOs.Watch
