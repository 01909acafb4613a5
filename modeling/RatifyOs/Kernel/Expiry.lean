import RatifyOs.Async.Inline
import RatifyOs.Cluster.Chain
import RatifyOs.Kernel.Gateway

/-! `SolanaRpc.confirm` over a chain and a clock that move between its reads, and the kernel
with its confirmer in place. -/
namespace RatifyOs.Kernel
open Async Data Cluster
open Async.Program hiding pure throw

inductive ConfirmationStatus where
  | processed
  | confirmed
  | finalized
  deriving DecidableEq

structure SignatureStatus where
  err : Option String
  confirmationStatus : Option ConfirmationStatus

/-- The effects of the kernel and of its confirmer; a call of `confirm` begins with
`confirming` and its caller goes on with `resolved`. -/
inductive WireOp where
  | kernel (op : Op)
  | confirming (signature : String) (lastValidBlockHeight : ℕ)
  | now
  | getSignatureStatuses (signature : String)
  | getBlockHeight
  | sleep (ms : ℕ)
  | resolved (signature : String) (lastValidBlockHeight : ℕ) (status : ConfirmStatus)

abbrev WireOp.Ans : WireOp → Type
  | kernel op => op.Ans
  | now => ℤ
  | getSignatureStatuses _ => Option SignatureStatus
  | getBlockHeight => ℕ
  | confirming _ _ | sleep _ | resolved _ _ _ => Unit

abbrev Wire := Program WireOp WireOp.Ans Failure

def CONFIRM_TIMEOUT_MS : ℤ := 90000

def CONFIRM_POLL_MS : ℕ := 1500

def settled (status : SignatureStatus) : Option ConfirmStatus :=
  if status.err.isSome then some .failed
  else match status.confirmationStatus with
    | some .confirmed | some .finalized => some .confirmed
    | _ => none

/-- The `while` of `confirm`, for so many polls at most. -/
def poll (signature : String) (lastValidBlockHeight : ℕ) (start : ℤ) : ℕ → Wire ConfirmStatus
  | 0 => throw (Failure.other "still polling")
  | polls + 1 => do
    let now ← call WireOp.now
    if now - start < CONFIRM_TIMEOUT_MS then do
      let status ← call (WireOp.getSignatureStatuses signature)
      match status.bind settled with
      | some outcome => return outcome
      | none => do
        let height ← call WireOp.getBlockHeight
        if lastValidBlockHeight < height then return .expired
        else do
          call (WireOp.sleep CONFIRM_POLL_MS)
          poll signature lastValidBlockHeight start polls
    else return .expired

def confirm (polls : ℕ) (signature : String) (lastValidBlockHeight : ℕ) : Wire ConfirmStatus := do
  call (WireOp.confirming signature lastValidBlockHeight)
  let start ← call WireOp.now
  let status ← poll signature lastValidBlockHeight start polls
  call (WireOp.resolved signature lastValidBlockHeight status)
  return status

/-- The kernel's effects, with `SolanaRpc` for the confirmer. -/
def wired (polls : ℕ) : (op : Op) → Wire op.Ans
  | .confirm signature lastValidBlockHeight => confirm polls signature lastValidBlockHeight
  | op => call (WireOp.kernel op)

abbrev Blocks := Chain (Sent.lastValidBlockHeight : Sent ℕ → ℕ)

structure Outside where
  store : KernelStore
  chain : Blocks
  clock : ℤ

/-- What the world does between two effects. -/
inductive Motion where
  | grow (height : ℕ)
  | land (tx : Sent ℕ)
  | wait (ms : ℕ)

/-- What the environment decides: the ports' part of an effect of the kernel, whether an RPC
call is refused, how far a landed transaction is confirmed, and how the world moves. -/
structure Weather where
  choice : Choice := {}
  refused : Option Failure := none
  status : SignatureStatus := ⟨none,some .finalized⟩
  motion : Motion := .wait 0

def Weather.rpc {α : Type} (w : Weather) (value : α) : Except Failure α :=
  match w.refused with
  | some failure => .error failure
  | none => .ok value

def Outside.moved (s : Outside) : Motion → Outside
  | .grow height => { s with chain := s.chain.grow height }
  | .land tx => { s with chain := s.chain.land tx }
  | .wait ms => { s with clock := s.clock + ms }

/-- A signature that has not landed is unknown to the RPC. -/
def wiredHandle (w : Weather) : (op : WireOp) → Outside → Except Failure op.Ans × Outside
  | .kernel op,s => (handle w.choice op s.store).map id fun store => { s with store }
  | .confirming _ _,s => (.ok (),s)
  | .now,s => (.ok s.clock,s)
  | .getSignatureStatuses signature,s => (w.rpc (if s.chain.seen signature then some w.status else none),s)
  | .getBlockHeight,s => (w.rpc s.chain.height,s)
  | .sleep _,s => (.ok (),s)
  | .resolved _ _ _,s => (.ok (),s)

/-- Any calls of the kernel, each confirmation for at most so many polls. -/
def overChain (d : Deployment) (polls : ℕ) : System WireOp WireOp.Ans Failure Outside Call Weather where
  program call := (Call.program d call).inline (wired polls)
  handle := wiredHandle
  ambient w s := s.moved w.motion
  restart s := s

abbrev Field := Config WireOp WireOp.Ans Failure Outside

end RatifyOs.Kernel

/-! What an answer `expired` is worth: the chain and the clock are read at different times. -/
namespace RatifyOs.Kernel.Expiry
open Async Data Cluster
open Async.Program hiding pure throw

abbrev WireLog := History WireOp WireOp.Ans Failure

/-- What a call is awaiting the confirmation of. -/
def inProgress : WireLog → Option (String × ℕ)
  | [] => none
  | ⟨.confirming signature limit,_⟩ :: _ => some (signature,limit)
  | ⟨.resolved _ _ _,_⟩ :: _ => none
  | _ :: h => inProgress h

def started : WireLog → Option ℤ
  | [] => none
  | ⟨.confirming _ _,_⟩ :: _ => none
  | ⟨.now,.ok now⟩ :: h => (started h).or (some now)
  | _ :: h => started h

/-- The last reading ends the polling: the height is past the limit, or the time is up. -/
def due : WireLog → Prop
  | ⟨.getBlockHeight,.ok height⟩ :: h => ∃ signature limit, inProgress h = some (signature,limit) ∧ limit < height
  | ⟨.now,.ok now⟩ :: h => ∃ start, started h = some start ∧ CONFIRM_TIMEOUT_MS ≤ now - start
  | _ => False

def expiredFor (signature : String) (limit : ℕ) (h : WireLog) : Bool :=
  h.any fun
    | ⟨.resolved s l .expired,_⟩ => s = signature && l = limit
    | _ => false

def allow (h : WireLog) : WireOp → Prop
  | .resolved signature limit .expired => inProgress h = some (signature,limit) ∧ due h
  | _ => True

section Discipline
variable {signature : String} {limit : ℕ} {start : ℤ}

/-- A call of `confirm` whose polling goes on. -/
structure Polling (signature : String) (limit : ℕ) (start : ℤ) (h : WireLog) : Prop where
  pending : inProgress h = some (signature,limit)
  since : started h = some start

end Discipline

/-- The height is read past the limit only if nothing has landed, and the time runs out only
once the transaction is past its limit and has not landed. -/
def Timely (c : Field) : Event Call Weather → Prop
  | .perform i _ =>
    match c.threads i with
    | some ⟨.perform op _,h⟩ => ∀ tx ∈ inProgress h,
      match op with
      | .getBlockHeight => tx.2 < c.state.chain.height → ¬c.state.chain.Landed ⟨tx.1,tx.2⟩
      | .now => ∀ start ∈ started h, CONFIRM_TIMEOUT_MS ≤ c.state.clock - start →
          tx.2 < c.state.chain.height ∧ ¬c.state.chain.Landed ⟨tx.1,tx.2⟩
      | _ => True
    | _ => True
  | _ => True

instance (c : Blocks) (tx : Sent ℕ) : Decidable (c.Landed tx) :=
  decidable_of_iff (∃ entry ∈ c.landed, entry.1 = tx) <| by
    constructor
    · rintro ⟨entry,inside,rfl⟩
      exact ⟨entry.2,inside⟩
    · rintro ⟨height,inside⟩
      exact ⟨_,inside,rfl⟩

instance (c : Field) (event : Event Call Weather) : Decidable (Timely c event) := by
  cases event with
  | perform i w =>
    unfold Timely
    dsimp only
    split
    · rename_i op _ h _
      cases op <;> infer_instance
    · infer_instance
  | _ => exact isTrue trivial

/-- What was answered `expired` has not landed and never will. -/
def Sound (c : Field) : Prop :=
  ∀ i t signature limit, c.threads i = some t → expiredFor signature limit t.history = true →
    c.state.chain.Dead ⟨signature,limit⟩

/-- No reservation is released by a call that was answered `expired` for a transaction that
can still land. -/
def Careful (c : Field) (event : Event Call Weather) : Prop :=
  ∀ i w r next h signature limit, event = .perform i w →
    c.threads i = some ⟨.perform (.kernel (.releaseReservation r)) next,h⟩ →
      expiredFor signature limit h = true → c.state.chain.Dead ⟨signature,limit⟩

/-- What the readings of a call have told it. -/
structure Told (s : Outside) (h : WireLog) : Prop where
  due : due h → ∀ signature limit, inProgress h = some (signature,limit) → s.chain.Dead ⟨signature,limit⟩
  expired : ∀ signature limit, expiredFor signature limit h = true → s.chain.Dead ⟨signature,limit⟩

section Step
variable {d : Deployment} {polls : ℕ} {c : Field} {event : Event Call Weather}

theorem chain_grows (c : Field) (event : Event Call Weather) :
    c.state.chain ≤ ((overChain d polls).step c event).state.chain := by
  cases event with
  | start call => exact le_refl _
  | crash => exact le_refl _
  | ambient w =>
    change c.state.chain ≤ (c.state.moved w.motion).chain
    cases w.motion with
    | grow height => exact Chain.le_grow _ _
    | land tx => exact Chain.le_land _ _
    | wait ms => exact le_refl _
  | perform i w =>
    rcases (overChain d polls).perform_cases c i w with ⟨op,next,history,here⟩ | idle
    · rw [(overChain d polls).perform_eq here]
      change c.state.chain ≤ (wiredHandle w op c.state).2.chain
      cases op <;> exact le_refl _
    · rw [idle]

theorem told_step (obeys : System.Obeys allow (fun _ => True) c) (told : System.Learned Told c)
    (timely : Timely c event) : System.Learned Told ((overChain d polls).step c event) := by
  have grows : c.state.chain ≤ ((overChain d polls).step c event).state.chain := chain_grows c event
  apply (overChain d polls).learned_step told
  · intro s
    constructor
    · intro ended
      cases ended
    · intro _ _ answered
      cases answered
  · intro h heard
    constructor
    · exact fun ended signature limit pending => (heard.due ended signature limit pending).mono grows
    · exact fun signature limit answered => (heard.expired signature limit answered).mono grows
  · intro i w op next h performed here heard
    have allowed := obeys.allowed here
    have before := told i _ here
    have calm : ∀ (op : WireOp) (answer : Except Failure op.Ans),
        (∀ s l, expiredFor s l (⟨op,answer⟩ :: h) = expiredFor s l h) →
        ∀ signature limit, expiredFor signature limit (⟨op,answer⟩ :: h) = true →
          ((overChain d polls).step c event).state.chain.Dead ⟨signature,limit⟩ :=
      fun op answer same signature limit answered => heard.expired signature limit (same signature limit ▸ answered)
    -- a reading that is not about the height and tells of no expiry
    have plain : ∀ (op : WireOp) (answer : Except Failure op.Ans), ¬due (⟨op,answer⟩ :: h) →
        (∀ s l, expiredFor s l (⟨op,answer⟩ :: h) = expiredFor s l h) →
        Told ((overChain d polls).step c event).state (⟨op,answer⟩ :: h) :=
      fun op answer early same => ⟨fun ended => absurd ended early,calm op answer same⟩
    change Told _ (⟨op,(wiredHandle w op c.state).1⟩ :: h)
    subst performed
    have onTime := timely
    simp only [Timely,here] at onTime
    cases op with
    | getBlockHeight =>
      constructor
      · intro ended signature limit pending
        cases refused : w.refused with
        | some failure =>
          simp only [wiredHandle,Weather.rpc,refused] at ended
          cases ended
        | none =>
          simp only [wiredHandle,Weather.rpc,refused] at ended pending
          obtain ⟨s,l,known,past⟩ := ended
          rw [show inProgress h = some (signature,limit) from pending] at known
          cases known
          have unlanded : ¬c.state.chain.Landed ⟨signature,limit⟩ := onTime (signature,limit) pending past
          exact (Chain.dead_of_past unlanded past).mono grows
      · exact calm _ _ fun _ _ => rfl
    | now =>
      constructor
      · intro ended signature limit pending
        obtain ⟨start,since,closed⟩ := ended
        obtain ⟨past,unlanded⟩ := onTime (signature,limit) pending start since closed
        exact (Chain.dead_of_past unlanded past).mono grows
      · exact calm _ _ fun _ _ => rfl
    | resolved s l status =>
      constructor
      · intro ended
        cases ended
      · intro signature limit answered
        cases status with
        | expired =>
          unfold expiredFor at answered
          rw [List.any_cons,Bool.or_eq_true] at answered
          rcases answered with here' | older
          · simp only [Bool.and_eq_true,decide_eq_true_eq] at here'
            obtain ⟨rfl,rfl⟩ := here'
            exact (before.due allowed.2 s l allowed.1).mono grows
          · exact heard.expired signature limit older
        | confirmed => exact calm (.resolved s l .confirmed) _ (fun _ _ => rfl) signature limit answered
        | failed => exact calm (.resolved s l .failed) _ (fun _ _ => rfl) signature limit answered
    | kernel op =>
      exact plain _ _ (fun ended => by cases ended) fun _ _ => rfl
    | confirming s l =>
      exact plain _ _ (fun ended => by cases ended) fun _ _ => rfl
    | getSignatureStatuses s =>
      exact plain _ _ (fun ended => by cases ended) fun _ _ => rfl
    | sleep ms =>
      exact plain _ _ (fun ended => by cases ended) fun _ _ => rfl

end Step

/-! One swap whose confirmation is polled once. -/
section Example

def weather : Weather := { choice := { reply := Sample.reply, id := "id" } }

def steps (n : ℕ) : List (Event Call Weather) := List.replicate n (.perform 0 weather)

def moves (motion : Motion) : Event Call Weather := .ambient { motion }

def polled : List (Event Call Weather) := .start (.live Sample.intent ⟨"key",true⟩) :: steps 29

/-- The time runs out while the transaction can still land. -/
def timedOut : List (Event Call Weather) := polled ++ steps 2 ++ [moves (.wait 90000)] ++ steps 3

def reservations (c : Field) : List SpendState := c.state.store.spends.rows.map (·.state)

end Example

end RatifyOs.Kernel.Expiry
