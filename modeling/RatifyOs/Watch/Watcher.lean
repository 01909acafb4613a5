import Mathlib.Data.Rat.Floor
import Mathlib.Logic.Function.Basic
import RatifyOs.Data.Numeral
import RatifyOs.Data.Run
import RatifyOs.Watch.Signals

/-! The launch feed: a socket that reconnects, the mints followed on it, and the tape that its
frames are written to. A socket is known by its generation. -/
namespace RatifyOs.Watch
open Data

section Frame

/-- `a ?? b` -/
def coalesce (a b : Option JsValue) : Option JsValue :=
  match a with
  | none | some .null => b
  | some v => some v

/-- `Number(text)`; a half of a surrogate pair is no part of a number. -/
def numberOfString (s : Utf16) : Double := Text.toNumber (s.map fun u => Char.ofNat u.val)

mutual

/-- `String(v)` throws for an object whose own `toString` hides the inherited one, as no function
comes out of JSON. -/
def textless : JsValue → Bool
  | .obj fields => (fields.lookup (Utf16.ofString "toString")).isSome
  | .arr items => textlessItems items
  | _ => false

def textlessItems : List JsValue → Bool
  | [] => false
  | v :: items => textless v || textlessItems items

end

/-- `Number(String([v]))`, for a value whose text is there; a text with a comma is no number. -/
def numberOfItem : JsValue → Double
  | .null => 0
  | .num x => x
  | .str s => numberOfString s
  | .arr [] => 0
  | .arr [v] => numberOfItem v
  | _ => .nan

/-- `Number(v)`; `none` throws. -/
def number (v : JsValue) : Option Double :=
  if textless v then none
  else match v with
    | .bool value => some (if value then 1 else 0)
    | v => some (numberOfItem v)

inductive Routed where
  | trade (t : TapeTrade)
  | newToken (mint : Utf16)

/-- What a frame is taken for; one of a bad shape is ignored. -/
def route (now : ℤ) (data : Text) : Option Routed :=
  match JsValue.parse data with
  | some (.obj d) =>
    let get (name : String) := d.lookup (Utf16.ofString name)
    let isBuy : Option Bool := match coalesce (get "txType") (get "type") with
      | some (.str kind) =>
        if kind = Utf16.ofString "buy" then some true else if kind = Utf16.ofString "sell" then some false else none
      | _ => none
    match get "mint", isBuy with
    | some (.str []), _ => none
    | some (.str mint), some isBuy =>
      if (get "solAmount").isNone ∧ (get "sol_amount").isNone then none
      else do
        let solAmount ← number ((coalesce (get "solAmount") (coalesce (get "sol_amount") none)).getD (.num 0))
        if ¬solAmount.isFinite ∨ solAmount < 0 then none
        else do
          let priceSol ← match coalesce (get "price") none with
            | none => some none
            | some priceRaw => (number priceRaw).map fun price => if price.isFinite then some price else none
          let trader := (coalesce (get "traderPublicKey") (coalesce (get "trader") none)).getD (.str [])
          return .trade { mint, solAmount, isBuy, trader, ts := now, priceSol }
    | some (.str mint), none => some (.newToken mint)
    | _, _ => none
  | _ => none

end Frame

section Watcher

inductive ReadyState where
  | connecting
  | open_
  | closing
  | closed
  deriving DecidableEq

inductive Command where
  | subscribeNewToken
  | subscribeTokenTrade (mint : Utf16)
  | unsubscribeTokenTrade (mint : Utf16)
  deriving DecidableEq

structure FeedSocket where
  readyState : ReadyState
  sent : List Command

/-- What is answered to a handler while it runs: the clock, `Math.random()`, and whether a socket
can be made. -/
structure Moment where
  now : ℤ
  random : ℚ
  creates : Bool
  unit : 0 ≤ random ∧ random < 1

def MAX_BACKOFF_MS : ℕ := 30000

def STALE_TIMEOUT_MS : ℤ := 60000

structure Watcher where
  ws : Option ℕ
  generation : ℕ
  stopped : Bool
  attempt : ℕ
  /-- The delay of the pending timer. -/
  reconnectTimer : Option ℚ
  /-- The watchdog is running. -/
  staleTimer : Bool
  lastMessageAt : ℤ
  connected : Bool
  tokenSubs : List Utf16
  /-- Every socket ever made, by its generation. -/
  sockets : ℕ → FeedSocket

namespace Watcher

def make : Watcher := ⟨none,0,false,0,none,false,0,false,[],fun _ => ⟨.closed,[]⟩⟩

/-- `generation === this.#generation && !this.#stopped` -/
def Mine (w : Watcher) (generation : ℕ) : Prop := generation = w.generation ∧ w.stopped = false

instance Mine.decidable (w : Watcher) (generation : ℕ) : Decidable (w.Mine generation) :=
  inferInstanceAs (Decidable (_ ∧ _))

def setSocket (w : Watcher) (generation : ℕ) (socket : FeedSocket) : Watcher :=
  { w with sockets := Function.update w.sockets generation socket }

def setReady (w : Watcher) (generation : ℕ) (readyState : ReadyState) : Watcher :=
  w.setSocket generation { w.sockets generation with readyState }

/-- `ws.close()`; the `close` event comes later. -/
def closeSocket (w : Watcher) (generation : ℕ) : Watcher :=
  if (w.sockets generation).readyState = .closed then w else w.setReady generation .closing

def send (w : Watcher) (command : Command) : Watcher :=
  match w.ws with
  | none => w
  | some g =>
    if (w.sockets g).readyState = .open_ then
      w.setSocket g { w.sockets g with sent := (w.sockets g).sent ++ [command] }
    else w

/-- Exponential backoff with jitter. -/
def backoff (attempt : ℕ) (random : ℚ) : ℚ :=
  let base : ℚ := (min MAX_BACKOFF_MS (1000 * 2 ^ attempt) : ℕ)
  base / 2 + random * (base / 2)

def scheduleReconnect (m : Moment) (w : Watcher) : Watcher :=
  if w.stopped ∨ w.reconnectTimer.isSome then w
  else { w with attempt := w.attempt + 1, reconnectTimer := some (backoff w.attempt m.random) }

def connect (m : Moment) (w : Watcher) : Watcher :=
  if w.stopped then w
  else
    let generation := w.generation + 1
    let w := { w with reconnectTimer := none, generation }
    if m.creates then { w.setSocket generation ⟨.connecting,[]⟩ with ws := some generation } else w.scheduleReconnect m

def start (m : Moment) (w : Watcher) : Watcher :=
  let w := { w with stopped := false }
  if w.ws.isSome then w else w.connect m

def stop (w : Watcher) : Watcher :=
  let ws := w.ws
  let w := { w with
    stopped := true, reconnectTimer := none, staleTimer := false, connected := false, ws := none
    generation := w.generation + 1 }
  match ws with
  | none => w
  | some g => w.closeSocket g

def subscribeTokenTrade (w : Watcher) (mint : Utf16) : Watcher :=
  { w with tokenSubs := if w.tokenSubs.contains mint then w.tokenSubs else w.tokenSubs ++ [mint] }.send
    (.subscribeTokenTrade mint)

def unsubscribeTokenTrade (w : Watcher) (mint : Utf16) : Watcher :=
  { w with tokenSubs := w.tokenSubs.filter (· ≠ mint) }.send (.unsubscribeTokenTrade mint)

/-- The handler of `open`. -/
def onOpen (m : Moment) (w : Watcher) : Watcher :=
  let w := { w with attempt := 0, connected := true, lastMessageAt := m.now, staleTimer := true }.send .subscribeNewToken
  w.tokenSubs.foldl (fun w mint => w.send (.subscribeTokenTrade mint)) w

/-- The handler of `close`. -/
def onClose (m : Moment) (w : Watcher) (generation : ℕ) : Watcher :=
  { w with connected := false, staleTimer := false, ws := if w.ws = some generation then none else w.ws }.scheduleReconnect m

def onReconnectTimer (m : Moment) (w : Watcher) : Watcher := { w with reconnectTimer := none }.connect m

/-- The watchdog: a socket that has been silent for too long is given up. -/
def onStaleTimer (m : Moment) (w : Watcher) : Watcher :=
  if w.stopped then w
  else if STALE_TIMEOUT_MS < m.now - w.lastMessageAt then
    let quiet := { w with staleTimer := false, connected := false }
    (match w.ws with
    | none => quiet
    | some g => { quiet with ws := none, generation := w.generation + 1 }.closeSocket g).scheduleReconnect m
  else w

end Watcher

end Watcher

section Feed

structure SignalsFeed where
  tape : TradeTape
  watcher : Watcher
  maxAutoFollow : Double
  autoFollowed : List Utf16
  pinned : List Utf16
  started : Bool

structure SignalsFeedOptions where
  maxPerMint : Option Double
  maxAutoFollow : Option Double

namespace SignalsFeed

def make (options : SignalsFeedOptions) : SignalsFeed :=
  ⟨.make (options.maxPerMint.getD 500),.make,.max 0 (options.maxAutoFollow.getD 64),[],[],false⟩

def start (m : Moment) (s : SignalsFeed) : SignalsFeed :=
  if s.started then s else { s with started := true, watcher := s.watcher.start m }

def stop (s : SignalsFeed) : SignalsFeed :=
  if s.started then { s with started := false, watcher := s.watcher.stop } else s

def watch (s : SignalsFeed) (mint : Utf16) : SignalsFeed :=
  if s.pinned.contains mint then s
  else { s with pinned := s.pinned ++ [mint], watcher := s.watcher.subscribeTokenTrade mint }

/-- The loop that drops the oldest of the launches followed; a pinned one stays subscribed. -/
def evict (max : Double) (pinned : List Utf16) : List Utf16 → Watcher → List Utf16 × Watcher
  | [], w => ([],w)
  | mint :: rest, w =>
    if max < .finite ((mint :: rest).length : ℕ) then
      evict max pinned rest (if pinned.contains mint then w else w.unsubscribeTokenTrade mint)
    else (mint :: rest,w)

def autoFollow (s : SignalsFeed) (mint : Utf16) : SignalsFeed :=
  if s.maxAutoFollow = 0 then s
  else if s.pinned.contains mint ∨ s.autoFollowed.contains mint then s
  else
    let (autoFollowed,watcher) :=
      evict s.maxAutoFollow s.pinned (s.autoFollowed ++ [mint]) (s.watcher.subscribeTokenTrade mint)
    { s with autoFollowed, watcher }

/-- The handler of `message`. -/
def onMessage (m : Moment) (s : SignalsFeed) (data : Text) : SignalsFeed :=
  let s := { s with watcher := { s.watcher with lastMessageAt := m.now } }
  match route m.now data with
  | none => s
  | some (.trade t) => { s with tape := s.tape.addTrade t }
  | some (.newToken mint) => s.autoFollow mint

inductive Event where
  | start
  | stop
  | watch (mint : Utf16)
  | opened (generation : ℕ)
  | message (generation : ℕ) (data : Text)
  /-- The other side begins to close. -/
  | closing (generation : ℕ)
  | closed (generation : ℕ)
  | reconnect
  | watchdog

/-- A socket opens once, hands on frames while it is open, and closes once; a timer fires only
while it is pending. -/
def step (s : SignalsFeed) : Moment × Event → SignalsFeed
  | (m,.start) => s.start m
  | (_,.stop) => s.stop
  | (_,.watch mint) => s.watch mint
  | (m,.opened g) =>
    if (s.watcher.sockets g).readyState = .connecting then
      let w := s.watcher.setReady g .open_
      { s with watcher := if w.Mine g then w.onOpen m else w }
    else s
  | (m,.message g data) =>
    if (s.watcher.sockets g).readyState = .open_ ∧ s.watcher.Mine g then s.onMessage m data else s
  | (_,.closing g) =>
    if (s.watcher.sockets g).readyState = .open_ then { s with watcher := s.watcher.setReady g .closing } else s
  | (m,.closed g) =>
    if (s.watcher.sockets g).readyState = .closed then s
    else
      let w := s.watcher.setReady g .closed
      { s with watcher := if w.Mine g then w.onClose m g else w }
  | (m,.reconnect) => if s.watcher.reconnectTimer.isSome then { s with watcher := s.watcher.onReconnectTimer m } else s
  | (m,.watchdog) => if s.watcher.staleTimer then { s with watcher := s.watcher.onStaleTimer m } else s

/-- The feed after what has happened to it since it was made. -/
def after (options : SignalsFeedOptions) (events : List (Moment × Event)) : SignalsFeed :=
  Run.run step (make options) events

end SignalsFeed

end Feed

end RatifyOs.Watch
