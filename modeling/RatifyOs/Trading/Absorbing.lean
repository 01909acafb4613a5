import RatifyOs.Async.Exclusive
import RatifyOs.Trading.Lifecycle

/-! Terminal executions stay as they are, as long as no call acts on a terminal row it
has read and none is overtaken by the call that makes the row terminal. -/
namespace RatifyOs.Trading
open Async

def TradeState.terminal : TradeState → Bool
  | .finalized | .failed | .denied | .expired | .dropped | .dryRun => true
  | .awaitingApproval | .approved | .signing | .submitting | .reconciliationRequired | .broadcast
  | .confirmed => false

def releases (e : String) : Entry Op Op.Ans String → Bool
  | ⟨.release id _,_⟩ => id = e
  | _ => false

def Op.Releases (e : String) : Op → Prop
  | .release id _ => id = e
  | _ => False

/-- A transition out of a terminal state. -/
def Op.Revives (e : String) : Op → Prop
  | .transition id states _ => id = e ∧ ∃ s ∈ states, s.terminal = true
  | _ => False

def Op.Reads (e : String) : Op → Prop
  | .getExecution id => id = e
  | _ => False

/-- Before it reads the row again, the call does not release the reservation of `e`. -/
def NoRelease (e : String) (p : Trade Unit) : Prop := p.Quiet (Op.Releases e) (Op.Reads e)

/-- Before it reads the row again, the call does not move `e` out of a terminal state. -/
def NoRevival (e : String) (p : Trade Unit) : Prop := p.Quiet (Op.Revives e) (Op.Reads e)

def Terminal (e : String) (p : Pool) : Prop := ∃ x, p.state.row e = some x ∧ x.state.terminal = true

structure Settled (e : String) (p : Pool) : Prop where
  seen : p.state.row e = none → ∀ x, ⟨.getExecution e,.ok (some x)⟩ ∉ p.trace
  unrevived : ∀ i t, p.threads i = some t → NoRevival e t.program
  unreleased : Terminal e p → ∀ i t, p.threads i = some t → NoRelease e t.program

section Absorbing
variable {web3 : Signer.Web3} {c : Deployment}

private theorem settled_initial (e : String) (clock : ℤ) : Settled e (Config.initial (State.initial clock)) where
  seen _ x := by simp [Config.initial]
  unrevived i t found := by simp [Config.initial] at found
  unreleased terminal := by
    obtain ⟨x,found,_⟩ := terminal
    simp [Config.initial] at found

end Absorbing

def finished : Trade Unit → Bool
  | .perform _ _ => false
  | _ => true

/-- The step neither makes a row terminal nor goes on from reading a terminal row. -/
def calm (e : String) (p : Pool) : Event Call Choice → Bool
  | .perform i _ =>
    match p.threads i with
    | some ⟨.perform (.getExecution id) next,_⟩ => id ≠ e ∨ (p.state.row e).all fun x =>
        x.state.terminal = false ∨ finished (next (.ok (some x)))
    | some ⟨.perform (.transition _ _ patch) _,_⟩ => patch.state.all fun s => s.terminal = false
    | _ => true
  | _ => true

end RatifyOs.Trading
