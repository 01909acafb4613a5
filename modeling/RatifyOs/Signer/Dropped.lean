import RatifyOs.Async.Refinement
import RatifyOs.Cluster.Chain
import RatifyOs.Signer.System

/-! The signer's reconciliation against a chain that moves on between two calls. -/
namespace RatifyOs.Signer
open Async Cluster Data

structure OnChain where
  signer : State
  chain : Chain (Sent.lastValidBlockHeight : Sent ℤ → ℤ)

structure Weather extends Choice where
  height : ℤ := 0
  lands : Option (Sent ℤ) := none
  status : SignatureStatus := ⟨0,none,false⟩

section OnChain
variable (web3 : Web3) (toLowerCase : String → String) (c : SignerConfig)

/-- The status is searched for in the whole history, so what has landed is found. -/
def observe (w : Weather) : (op : Op) → OnChain → Except String op.Ans × OnChain
  | .getSignatureStatuses signature,s =>
    ((w.reply (.getSignatureStatuses signature)).map fun _ =>
      if s.chain.seen signature then some w.status else none,s)
  | .getBlockHeight,s =>
    ((w.reply .getBlockHeight).map fun _ => (some s.chain.height).filter fun n => safeInteger n,s)
  | op,s =>
    let result := handle toLowerCase w.toChoice op s.signer
    (result.1,{ s with signer := result.2 })

def advance (w : Weather) (s : OnChain) : OnChain where
  signer := { s.signer with clock := s.signer.clock + w.elapsed }
  chain := match w.lands with
    | some t => (s.chain.grow w.height).land t
    | none => s.chain.grow w.height

def onChain : System Op Op.Ans String OnChain Call Weather where
  program := Call.program web3 toLowerCase c
  handle := observe toLowerCase
  ambient := advance
  restart s := s

theorem exists_reply {op : Op} (answer : Except String op.Ans) : ∃ choice : Choice, choice.reply op = answer := by
  classical
  exact ⟨{ reply := fun other => if same : other = op then same ▸ answer else .error "" },by simp⟩

theorem observe_refines (w : Weather) (op : Op) (s : OnChain) : ∃ choice,
    handle toLowerCase choice op s.signer =
      ((observe toLowerCase w op s).1,(observe toLowerCase w op s).2.signer) := by
  cases op with
  | getSignatureStatuses signature =>
    obtain ⟨choice,same⟩ := exists_reply (observe toLowerCase w (.getSignatureStatuses signature) s).1
    exact ⟨choice,by simp [handle,observe,same]⟩
  | getBlockHeight =>
    obtain ⟨choice,same⟩ := exists_reply (observe toLowerCase w .getBlockHeight s).1
    exact ⟨choice,by simp [handle,observe,same]⟩
  | _ => exact ⟨w.toChoice,rfl⟩

theorem onChain_refines : Refinement (onChain web3 toLowerCase c) (system web3 toLowerCase c) (·.signer) where
  program _ := rfl
  handle := observe_refines toLowerCase
  ambient w _ := ⟨w.toChoice,rfl⟩
  restart _ := rfl

theorem chain_grows (p : Config Op Op.Ans String OnChain) (event : Event Call Weather) :
    p.state.chain ≤ ((onChain web3 toLowerCase c).step p event).state.chain := by
  cases event with
  | start call => exact le_refl _
  | crash => exact le_refl _
  | ambient w =>
    simp only [System.step,onChain,advance]
    split
    · exact (Chain.le_grow _ _).trans (Chain.le_land _ _)
    · exact Chain.le_grow _ _
  | perform i w =>
    rcases (onChain web3 toLowerCase c).perform_cases p i w with ⟨op,next,history,here⟩ | idle
    · rw [(onChain web3 toLowerCase c).perform_eq here]
      cases op <;> exact le_refl _
    · rw [idle]

/-- `reconcileTransactions` asks for the status, and after a `null` for the height. -/
def watch : Watch Op.Ans String OnChain ℤ where
  chain s := s.chain
  reads
    | .getBlockHeight => true
    | _ => false
  unknown
    | ⟨.getSignatureStatuses signature,.ok none⟩ => some signature
    | _ => none
  height
    | ⟨.getBlockHeight,.ok height⟩ => height
    | _ => none

theorem watch_faithful (w : Weather) (op : Op) (s : OnChain) (height : ℤ)
    (seen : watch.height ⟨op,(observe toLowerCase w op s).1⟩ = some height) :
    watch.reads op = true ∧ height = s.chain.height := by
  cases op with
  | getBlockHeight =>
    refine ⟨rfl,?_⟩
    simp only [observe,watch] at seen
    cases reply : w.reply .getBlockHeight with
    | error error =>
      rw [reply] at seen
      cases seen
    | ok value =>
      rw [reply] at seen
      exact (Option.some.inj (Option.filter_eq_some_iff.mp seen).1).symm
  | _ => cases seen

end OnChain

abbrev Watched := Config Op Op.Ans String OnChain

/-- A dropped row holds a signature that has not landed and never will. -/
def Dropped (id : String) (s : OnChain) : Prop :=
  ∀ row, s.signer.row id = some row → row.state = .dropped → ∃ data signature limit,
    row.data = some data ∧ data.signature = some signature ∧ data.lastValidBlockHeight = some limit ∧
      s.chain.Dead ⟨signature,limit⟩

section Dropped
variable {web3 : Web3} {toLowerCase : String → String} {c : SignerConfig}

theorem Stage.to_dropped {h : Log} {id : String} {from_ to_ : ExecutionState} {data : Option RowData}
    (stage : Stage web3 h id from_ to_ data) (dropped : to_ = .dropped) : ∃ written signature limit height rest,
      data = some written ∧ written.signature = some signature ∧ written.lastValidBlockHeight = some limit ∧
        h = ⟨.getBlockHeight,.ok (some height)⟩ :: ⟨.getSignatureStatuses signature,.ok none⟩ :: rest ∧
        limit < height := by
  cases stage with
  | drop listed newest past => exact ⟨_,_,_,_,_,rfl,rfl,rfl,newest,past⟩
  | settle listed seen =>
    subst dropped
    unfold settled at seen
    split at seen
    · cases seen
    · split at seen
      · cases seen
      · split at seen <;> cases seen
  | _ => cases dropped

private theorem dropped_perform {p : Watched} {id : String} (told : System.Learned watch.Told p)
    (dropped : Dropped id p.state) {i : ℕ} {op : Op} {next : Except String op.Ans → Signing Unit} {history : Log}
    (here : p.threads i = some ⟨.perform op next,history⟩) (allowed : allow web3 history op) (w : Weather)
    (grows : p.state.chain ≤ (observe toLowerCase w op p.state).2.chain) :
    Dropped id (observe toLowerCase w op p.state).2 := by
  obtain ⟨choice,same⟩ := observe_refines toLowerCase w op p.state
  have step := handle_row toLowerCase id choice op p.state.signer
  rw [same] at step
  intro row found state
  have kept : ∀ old, p.state.signer.row id = some old → old.state = .dropped → old.data = row.data →
      ∃ data signature limit, row.data = some data ∧ data.signature = some signature ∧
        data.lastValidBlockHeight = some limit ∧ (observe toLowerCase w op p.state).2.chain.Dead ⟨signature,limit⟩ := by
    intro old there was object
    obtain ⟨data,signature,limit,stored,known,bound,dead⟩ := dropped old there was
    exact ⟨data,signature,limit,object ▸ stored,known,bound,dead.mono grows⟩
  cases step with
  | same unchanged => exact kept row (unchanged.symm.trans found) state rfl
  | claimed absent after =>
    cases Option.some.inj (after.symm.trans found)
    cases state
  | released there after =>
    cases Option.some.inj (after.symm.trans found)
    exact kept _ there state rfl
  | moved there expected after =>
    cases Option.some.inj (after.symm.trans found)
    obtain ⟨data,signature,limit,height,rest,written,known,bound,newest,past⟩ := Stage.to_dropped allowed state
    have dead : p.state.chain.Dead ⟨signature,limit⟩ :=
      told i _ here [] _ _ rest height signature limit newest rfl rfl past
    exact ⟨data,signature,limit,written,known,bound,dead.mono grows⟩

private theorem dropped_step {p : Watched} {id : String} (event : Event Call Weather)
    (disciplined : System.Obeys (allow web3) (fun _ => True) p) (told : System.Learned watch.Told p)
    (dropped : Dropped id p.state) : Dropped id ((onChain web3 toLowerCase c).step p event).state := by
  have grows := chain_grows web3 toLowerCase c p event
  have still : ((onChain web3 toLowerCase c).step p event).state.signer.row id = p.state.signer.row id →
      Dropped id ((onChain web3 toLowerCase c).step p event).state := by
    intro row x found state
    obtain ⟨data,signature,limit,stored,known,bound,dead⟩ := dropped x (row.symm.trans found) state
    exact ⟨data,signature,limit,stored,known,bound,dead.mono grows⟩
  cases event with
  | start call => exact still rfl
  | ambient w => exact still rfl
  | crash => exact still rfl
  | perform i w =>
    rcases (onChain web3 toLowerCase c).perform_cases p i w with ⟨op,next,history,here⟩ | idle
    · rw [(onChain web3 toLowerCase c).perform_eq here] at grows ⊢
      exact dropped_perform told dropped here (disciplined.allowed here) w grows
    · rw [idle]
      exact dropped

variable (web3 toLowerCase c) in
/-- With every null status still true when the height is read, a dropped row is of a dead
transaction. -/
theorem dropped_of_timely (clock : ℤ) (chain : Chain (Sent.lastValidBlockHeight : Sent ℤ → ℤ))
    (events : List (Event Call Weather)) (id : String)
    (timely : (onChain web3 toLowerCase c).Meets watch.Timely (Config.initial ⟨State.initial clock,chain⟩) events) :
    Dropped id ((onChain web3 toLowerCase c).run (Config.initial ⟨State.initial clock,chain⟩) events).state := by
  have started : System.Learned watch.Told (Config.initial ⟨State.initial clock,chain⟩ : Watched) ∧
      Dropped id ⟨State.initial clock,chain⟩ := by
    refine ⟨Watch.learned_initial _,?_⟩
    intro row found
    simp [State.initial,State.row] at found
  have reconciled := (onChain web3 toLowerCase c).run_induction (program_safe web3 toLowerCase c) watch.Timely
    (fun p => System.Learned watch.Told p ∧ Dropped id p.state)
    (fun p event disciplined timely kept =>
      ⟨Watch.told_step (chain_grows web3 toLowerCase c p event) (watch_faithful toLowerCase) kept.1 timely,
        dropped_step event disciplined kept.1 kept.2⟩)
    (System.obeys_initial _) started events timely
  exact reconciled.2.2

end Dropped

namespace Sample

/-- The same event, with the chain standing still. -/
def calm : Event Call Choice → Event Call Weather
  | .start call => .start call
  | .perform i choice => .perform i { toChoice := choice }
  | .ambient choice => .ambient { toChoice := choice }
  | .crash => .crash

/-- A broadcast transaction is reconciled; `between` is what happens between the two reads. -/
def reconciling (between : List (Event Call Weather)) : List (Event Call Weather) :=
  ((signing (some 100) ++ broadcasting ++ .start .reconcileTransactions :: steps 2 2).map calm) ++ between ++
    (steps 2 2).map calm

/-- It lands at the last height it is valid at. -/
def lastMoment : List (Event Call Weather) :=
  [.ambient { height := 100, lands := some ⟨base58Signature,100⟩ },.ambient { height := 101 }]

def chained : System Op Op.Ans String OnChain Call Weather := onChain web3 String.toLower ⟨false,false⟩

def genesis : Watched := Config.initial ⟨State.initial 0,.genesis 0⟩

end Sample

end RatifyOs.Signer
