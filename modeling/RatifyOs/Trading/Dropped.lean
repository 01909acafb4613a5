import RatifyOs.Async.Refinement
import RatifyOs.Cluster.Chain
import RatifyOs.Signer.Dropped
import RatifyOs.Trading.Lifecycle

/-! Reconciliation against a chain that moves on between two calls of the RPC. -/
namespace RatifyOs.Trading
open Async Cluster

structure OnChain where
  trade : State
  chain : Chain (Sent.lastValidBlockHeight : Sent ℕ → ℕ)

/-- Beside what is answered: the height the chain reaches, and what lands there. -/
structure Weather extends Choice where
  height : ℕ := 0
  lands : Option (Sent ℕ) := none

/-- The status of a transaction that never landed is `null`; the endpoint searches no
history, so it may answer `null` for an old one as well. -/
def observe (w : Weather) : (op : Op) → OnChain → Except String op.Ans × OnChain
  | .status signature,s =>
    ((w.reply (.status signature)).map fun answer => if s.chain.seen signature then answer else none,s)
  | .blockHeight,s => ((w.reply .blockHeight).map fun _ => s.chain.height,s)
  | op,s =>
    let result := handle w.toChoice op s.trade
    (result.1,{ s with trade := result.2 })

def advance (w : Weather) (s : OnChain) : OnChain where
  trade := elapse w.toChoice s.trade
  chain := match w.lands with
    | some t => (s.chain.grow w.height).land t
    | none => s.chain.grow w.height

section OnChain
variable (web3 : Signer.Web3) (c : Deployment)

def onChain : System Op Op.Ans String OnChain Call Weather where
  program := Call.program web3 c
  handle := observe
  ambient := advance
  restart s := s

theorem observe_refines (w : Weather) (op : Op) (s : OnChain) : ∃ choice,
    handle choice op s.trade = ((observe w op s).1,(observe w op s).2.trade) := by
  cases op with
  | status signature =>
    obtain ⟨choice,same⟩ := exists_reply (observe w (.status signature) s).1
    exact ⟨choice,by simp [handle,observe,same]⟩
  | blockHeight =>
    obtain ⟨choice,same⟩ := exists_reply (observe w .blockHeight s).1
    exact ⟨choice,by simp [handle,observe,same]⟩
  | _ => exact ⟨w.toChoice,rfl⟩

theorem onChain_refines : Refinement (onChain web3 c) (system web3 c) (·.trade) where
  program _ := rfl
  handle := observe_refines
  ambient w _ := ⟨w.toChoice,rfl⟩
  restart _ := rfl

theorem chain_grows (p : Config Op Op.Ans String OnChain) (event : Event Call Weather) :
    p.state.chain ≤ ((onChain web3 c).step p event).state.chain := by
  cases event with
  | start call => exact le_refl _
  | crash => exact le_refl _
  | ambient w =>
    simp only [System.step,onChain,advance]
    split
    · exact (Chain.le_grow _ _).trans (Chain.le_land _ _)
    · exact Chain.le_grow _ _
  | perform i w =>
    rcases (onChain web3 c).perform_cases p i w with ⟨op,next,history,here⟩ | idle
    · rw [(onChain web3 c).perform_eq here]
      cases op <;> exact le_refl _
    · rw [idle]

end OnChain

abbrev Watched := Config Op Op.Ans String OnChain

/-- `reconcile` asks for the status, and after a `null` for the height. -/
def watch : Watch Op.Ans String OnChain ℕ where
  chain s := s.chain
  reads
    | .blockHeight => true
    | _ => false
  unknown
    | ⟨.status signature,.ok none⟩ => some signature
    | _ => none
  height
    | ⟨.blockHeight,.ok height⟩ => some height
    | _ => none

theorem watch_faithful (w : Weather) (op : Op) (s : OnChain) (height : ℕ)
    (seen : watch.height ⟨op,(observe w op s).1⟩ = some height) : watch.reads op = true ∧ height = s.chain.height := by
  cases op with
  | blockHeight =>
    refine ⟨rfl,?_⟩
    simp only [observe,watch] at seen
    cases reply : w.reply .blockHeight with
    | error error =>
      rw [reply] at seen
      cases seen
    | ok value =>
      rw [reply] at seen
      exact (Option.some.inj seen).symm
  | _ => cases seen

/-- A dropped row is of a transaction that has not landed and never will. -/
def Dropped (e : String) (s : OnChain) : Prop :=
  ∀ x, s.trade.row e = some x → x.state = .dropped → ∃ signature limit,
    x.signature = some signature ∧ x.lastValidBlockHeight = some limit ∧ s.chain.Dead ⟨signature,limit⟩

structure Reconciled (e : String) (p : Watched) : Prop where
  steady : Steady e (p.view (·.trade))
  told : System.Learned watch.Told p
  dropped : Dropped e p.state

theorem reconciled_initial (e : String) (clock : ℤ) (chain : Chain (Sent.lastValidBlockHeight : Sent ℕ → ℕ)) :
    Reconciled e (Config.initial ⟨State.initial clock,chain⟩) where
  steady := steady_initial e clock
  told := Watch.learned_initial _
  dropped x found := by simp [Config.initial] at found

section Dropped
variable {web3 : Signer.Web3} {c : Deployment}

private theorem dropped_step {e : String} {p : Watched} (disciplined : Disciplined web3 c (p.view (·.trade)))
    (reconciled : Reconciled e p) (event : Event Call Weather) : Dropped e ((onChain web3 c).step p event).state := by
  have grows := chain_grows web3 c p event
  obtain ⟨event',same⟩ := (onChain_refines web3 c).step p event
  have change := change_of_step web3 c e disciplined event'
  rw [same] at change
  intro x found state
  cases change with
  | same row =>
    obtain ⟨signature,limit,known,bound,dead⟩ := reconciled.dropped x (row.symm.trans found) state
    exact ⟨signature,limit,known,bound,dead.mono grows⟩
  | created fresh absent row =>
    cases Option.some.inj (row.symm.trans found)
    rcases fresh with rfl | rfl <;> cases state
  | moved performed here move recorded there expected row =>
    rename_i i choice states patch next history old
    cases Option.some.inj (row.symm.trans found)
    cases move with
    | drop read known past =>
      rename_i x signature
      obtain ⟨limit,height,newer,older,bound,past_,split⟩ := past
      have dead : p.state.chain.Dead ⟨signature,limit⟩ :=
        reconciled.told i _ here newer _ _ older height signature limit split rfl rfl past_
      have inside : ⟨.getExecution e,.ok (some x)⟩ ∈ history := List.mem_of_find?_eq_some read
      obtain ⟨signed,_⟩ := read_signature reconciled.steady recorded read known there
      obtain ⟨y,there',bound'⟩ := reconciled.steady.bounded x (recorded inside) (by rw [known]; rfl)
      cases Option.some.inj (there.symm.trans there')
      exact ⟨signature,limit,signed,bound'.trans bound,dead.mono grows⟩
    | decide either => rcases either with rfl | rfl <;> cases state
    | request =>
      have was := List.mem_singleton.mp expected
      rw [show (old.patched _ _).state = old.state from rfl,was] at state
      cases state
    | authorize issued =>
      have was := List.mem_singleton.mp expected
      rw [show (old.patched _ _).state = old.state from rfl,was] at state
      cases state
    | observe read known seen =>
      simp only [Execution.patched,Option.getD_some,settledState] at state
      split at state
      · cases state
      · split at state <;> cases state
    | _ => cases state

theorem reconciled_step {e : String} {p : Watched} (event : Event Call Weather)
    (disciplined : Disciplined web3 c (p.view (·.trade))) (timely : watch.Timely p event) (reconciled : Reconciled e p) :
    Reconciled e ((onChain web3 c).step p event) where
  steady := by
    obtain ⟨event',same⟩ := (onChain_refines web3 c).step p event
    rw [← same]
    exact steady_step disciplined event' reconciled.steady
  told := Watch.told_step (chain_grows web3 c p event) watch_faithful reconciled.told timely
  dropped := dropped_step disciplined reconciled event

variable (web3 c) in
/-- With every null status still true when the height is read, a dropped execution is of
a dead transaction. -/
theorem dropped_of_timely (clock : ℤ) (chain : Chain (Sent.lastValidBlockHeight : Sent ℕ → ℕ))
    (events : List (Event Call Weather)) (e : String)
    (timely : (onChain web3 c).Meets watch.Timely (Config.initial ⟨State.initial clock,chain⟩) events) :
    Dropped e ((onChain web3 c).run (Config.initial ⟨State.initial clock,chain⟩) events).state := by
  have reconciled := (onChain web3 c).run_induction (program_safe web3 c) watch.Timely (Reconciled e)
    (fun p event disciplined timely reconciled =>
      reconciled_step event (fun i t found => disciplined i t found) timely reconciled)
    (System.obeys_initial _) (reconciled_initial e clock chain) events timely
  exact reconciled.2.dropped

end Dropped

/-- Both reconcilers drop only dead transactions, in every run in which no transaction
lands unseen between the two reads and expires before the second. -/
theorem dropped_dead (web3 : Signer.Web3) (clock : ℤ) :
    (∀ (c : Deployment) (chain : Chain (Sent.lastValidBlockHeight : Sent ℕ → ℕ))
      (events : List (Event Call Weather)) (e : String),
      (onChain web3 c).Meets watch.Timely (Config.initial ⟨State.initial clock,chain⟩) events →
        Dropped e ((onChain web3 c).run (Config.initial ⟨State.initial clock,chain⟩) events).state) ∧
    ∀ (toLowerCase : String → String) (c : Signer.SignerConfig)
      (chain : Chain (Sent.lastValidBlockHeight : Sent ℤ → ℤ)) (events : List (Event Signer.Call Signer.Weather))
      (id : String),
      (Signer.onChain web3 toLowerCase c).Meets Signer.watch.Timely
          (Config.initial ⟨Signer.State.initial clock,chain⟩) events →
        Signer.Dropped id ((Signer.onChain web3 toLowerCase c).run
          (Config.initial ⟨Signer.State.initial clock,chain⟩) events).state := by
  constructor
  · intro c chain events e
    exact dropped_of_timely web3 c clock chain events e
  · intro toLowerCase c chain events id
    exact Signer.dropped_of_timely web3 toLowerCase c clock chain events id

namespace Sample

def calm : Event Call Choice → Event Call Weather
  | .start call => .start call
  | .perform i choice => .perform i { toChoice := choice }
  | .ambient choice => .ambient { toChoice := choice }
  | .crash => .crash

def unknownReply : (op : Op) → Except String op.Ans
  | .status _ => .ok none
  | op => lostReply op

/-- A submitted execution is being reconciled, and its status was `null`. -/
def unsettled : List (Event Call Choice) :=
  approval ++ [.start (.submit "e")] ++ stepsWith lostReply 2 14 ++ [.start (.reconcile "e")] ++
    stepsWith unknownReply 3 2

/-- `between` is what happens before the height is read. -/
def reconciling (between : List (Event Call Weather)) : List (Event Call Weather) :=
  unsettled.map calm ++ between ++ (stepsWith unknownReply 3 3).map calm

def lastMoment : List (Event Call Weather) :=
  [.ambient { height := 100, lands := some ⟨Signer.Sample.base58Signature,100⟩ },.ambient { height := 101 }]

def chained : System Op Op.Ans String OnChain Call Weather := onChain Signer.Sample.web3 deployment

def genesis : Watched := Config.initial ⟨State.initial 0,.genesis 0⟩

end Sample

open Sample in
/-- The height passes the validity and nothing has landed: both records are dropped. -/
theorem dropped_dead_expired :
    (Dropped "e" (chained.run genesis (reconciling [.ambient { height := 101 }])).state ∧
      ((chained.run genesis (reconciling [.ambient { height := 101 }])).state.trade.row "e").map (·.state) =
        some .dropped) ∧
      Signer.Dropped "authorization" (Signer.Sample.chained.run Signer.Sample.genesis
        (Signer.Sample.reconciling [.ambient { height := 101 }])).state := by
  have trading : chained.Meets watch.Timely genesis (reconciling [.ambient { height := 101 }]) ∧
      ((chained.run genesis (reconciling [.ambient { height := 101 }])).state.trade.row "e").map (·.state) =
        some .dropped := by decide +kernel
  have signing : Signer.Sample.chained.Meets Signer.watch.Timely Signer.Sample.genesis
      (Signer.Sample.reconciling [.ambient { height := 101 }]) := by decide +kernel
  refine ⟨⟨?_,trading.2⟩,?_⟩
  · exact (dropped_dead Signer.Sample.web3 0).1 deployment (.genesis 0) _ "e" trading.1
  · exact (dropped_dead Signer.Sample.web3 0).2 String.toLower ⟨false,false⟩ (.genesis 0) _ "authorization" signing

open Sample in
/-- The transaction lands after its status was `null`, at the last height it is valid at,
and the height is read one block later. -/
theorem dropped_landed :
    ¬Dropped "e" (chained.run genesis (reconciling lastMoment)).state ∧
      ¬Signer.Dropped "authorization"
        (Signer.Sample.chained.run Signer.Sample.genesis (Signer.Sample.reconciling Signer.Sample.lastMoment)).state := by
  have trading : ((chained.run genesis (reconciling lastMoment)).state.trade.row "e").map
        (fun x => (x.state,x.signature,x.lastValidBlockHeight)) =
        some (.dropped,some Signer.Sample.base58Signature,some 100) ∧
      (chained.run genesis (reconciling lastMoment)).state.chain.landed =
        [(⟨Signer.Sample.base58Signature,100⟩,100)] := by decide +kernel
  have signing : ((Signer.Sample.chained.run Signer.Sample.genesis
        (Signer.Sample.reconciling Signer.Sample.lastMoment)).state.signer.row "authorization").map
        (fun row => (row.state,row.data.map fun data => (data.signature,data.lastValidBlockHeight))) =
        some (.dropped,some (some Signer.Sample.base58Signature,some 100)) ∧
      (Signer.Sample.chained.run Signer.Sample.genesis
        (Signer.Sample.reconciling Signer.Sample.lastMoment)).state.chain.landed =
          [(⟨Signer.Sample.base58Signature,100⟩,100)] := by decide +kernel
  constructor
  · intro sound
    obtain ⟨x,found,same⟩ := Option.map_eq_some_iff.mp trading.1
    simp only [Prod.mk.injEq] at same
    obtain ⟨signature,limit,known,bound,dead⟩ := sound x found same.1
    cases Option.some.inj (same.2.1.symm.trans known)
    cases Option.some.inj (same.2.2.symm.trans bound)
    exact dead _ (le_refl _) ⟨100,by rw [trading.2]; exact List.mem_cons_self⟩
  · intro sound
    obtain ⟨row,found,same⟩ := Option.map_eq_some_iff.mp signing.1
    simp only [Prod.mk.injEq] at same
    obtain ⟨data,signature,limit,stored,known,bound,dead⟩ := sound row found same.1
    rw [stored,Option.map_some,Option.some.injEq,Prod.mk.injEq] at same
    cases Option.some.inj (same.2.1.symm.trans known)
    cases Option.some.inj (same.2.2.symm.trans bound)
    exact dead _ (le_refl _) ⟨100,by rw [signing.2]; exact List.mem_cons_self⟩

end RatifyOs.Trading
