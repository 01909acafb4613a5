import RatifyOs.Async.Calls
import RatifyOs.Kernel.Discipline

/-! The money path once for each idempotency key, and what a signature has behind it. -/
namespace RatifyOs.Kernel
open Async Data
open Async.Program hiding pure throw

/-- What a key is good for once. -/
inductive Act where
  | reserve
  | insertTrade
  | sign
  | broadcast
  deriving DecidableEq

def Op.act : Op → Option Act
  | reserve _ => some .reserve
  | insertTrade _ _ => some .insertTrade
  | sign _ => some .sign
  | broadcast _ _ _ => some .broadcast
  | _ => none

def Op.isClaim : Op → Bool
  | claimIdempotency _ _ _ => true
  | _ => false

def Op.isPolicy : Op → Bool
  | policy => true
  | _ => false

/-- Nothing of the money path. -/
def Op.free (op : Op) : Bool := op.act.isNone && !op.isClaim && !op.isPolicy

namespace Idempotency

def asks (k : String) : Record → Bool
  | ⟨.claimIdempotency key _ _,_⟩ => key = k
  | _ => false

def wins (k : String) : Record → Bool
  | ⟨.claimIdempotency key _ _,.ok true⟩ => key = k
  | _ => false

def acted (a : Act) (h : Log) : Bool := h.any fun entry => entry.1.act = some a

/-- The claim, the guards, the mint check and the reservation. -/
structure Guarded (intent : TradeIntent) (o : ExecuteOptions) (h : Log) : Prop where
  won : h.any (wins o.idempotencyKey)
  cleared : ∃ policy, ⟨.policy,.ok policy⟩ ∈ h ∧ staticGuards policy intent ⟨false,o.confirmedByUser⟩ = .ok () ∧
    (∃ mints, ⟨.inspect intent.inputMint intent.outputMint,.ok mints⟩ ∈ h ∧
      (policy.allowToken2022 = true ∨ mints.1.isToken2022 = false ∧ mints.2.isToken2022 = false)) ∧
    ∀ bucket, quoteBucketFor intent.inputMint = some bucket → ∃ args id hour day,
      ⟨.reserve args,.ok (.ok id hour day)⟩ ∈ h ∧ args.bucket = bucket ∧ args.amount = intent.inputAmount ∧
        args.caps = match bucket with
          | .sol => policy.capsSol
          | .usdc => policy.capsUsdc

/-- And the balance. -/
structure Covered (d : Deployment) (intent : TradeIntent) (o : ExecuteOptions) (h : Log) : Prop where
  guarded : Guarded intent o h
  balance : ∃ pre, ⟨.readPair d.pubkey intent.inputMint intent.outputMint,.ok pre⟩ ∈ h ∧
    intent.inputAmount + (if quoteBucketFor intent.inputMint = some .sol then feeBufferLamports else 0) ≤ pre.input

/-- And the simulation. -/
structure Passed (d : Deployment) (intent : TradeIntent) (o : ExecuteOptions) (h : Log) : Prop where
  covered : Covered d intent o h
  simulated : ∃ sim, ⟨.simulate intent.unsignedTxBase64,.ok sim⟩ ∈ h ∧ sim.ok = true

/-- What `#live` may do. -/
def permits (d : Deployment) (intent : TradeIntent) (o : ExecuteOptions) (h : Log) (op : Op) : Prop :=
  (∀ a, op.act = some a → h.any (wins o.idempotencyKey) ∧ acted a h = false) ∧
    match op with
    | .claimIdempotency key _ _ => key = o.idempotencyKey ∧ ∀ entry ∈ h, entry.1.isClaim = false
    | .policy => ∀ entry ∈ h, entry.1.isPolicy = false
    | .insertTrade row _ => row.idempotencyKey = o.idempotencyKey
    | .sign tx => Passed d intent o h ∧ tx = intent.unsignedTxBase64
    | .broadcast _ _ _ => acted .sign h
    | _ => True

section Evidence
variable {d : Deployment} {intent : TradeIntent} {o : ExecuteOptions} {h : Log}

theorem permits_of_free {op : Op} (free : op.free) : permits d intent o h op := by
  cases op <;> first | (refine ⟨?_,trivial⟩; rintro a ⟨⟩; done) | cases free

theorem acted_cons (a : Act) (entry : Record) : acted a (entry :: h) = (decide (entry.1.act = some a) || acted a h) := rfl

theorem acted_free {op : Op} (free : op.free) (a : Act) (answer : Except Failure op.Ans) :
    acted a (⟨op,answer⟩ :: h) = acted a h := by
  have nothing : op.act = none := by
    unfold Op.free at free
    simp only [Bool.and_eq_true,Option.isNone_iff_eq_none] at free
    exact free.1.1
  simp [acted_cons,nothing]

theorem Guarded.cons (guarded : Guarded intent o h) (entry : Record) : Guarded intent o (entry :: h) := by
  obtain ⟨won,policy,read,static,⟨mints,inspected,supported⟩,reserved⟩ := guarded
  refine ⟨by simp [won],policy,List.mem_cons_of_mem _ read,static,⟨mints,List.mem_cons_of_mem _ inspected,supported⟩,?_⟩
  intro bucket found
  obtain ⟨args,id,hour,day,inside,rest⟩ := reserved bucket found
  exact ⟨args,id,hour,day,List.mem_cons_of_mem _ inside,rest⟩

theorem Covered.cons (covered : Covered d intent o h) (entry : Record) : Covered d intent o (entry :: h) := by
  obtain ⟨guarded,pre,read,enough⟩ := covered
  exact ⟨guarded.cons entry,pre,List.mem_cons_of_mem _ read,enough⟩

theorem Passed.cons (passed : Passed d intent o h) (entry : Record) : Passed d intent o (entry :: h) := by
  obtain ⟨covered,sim,answered,fine⟩ := passed
  exact ⟨covered.cons entry,sim,List.mem_cons_of_mem _ answered,fine⟩

end Evidence

def Idle {α : Type} (p : Gateway α) : Prop := ∀ h, p.wp (fun _ op => op.free) (fun _ _ => True) (fun _ _ => True) h

section Idle
variable {α β : Type}

theorem idle_call {op : Op} (free : op.free) : Idle (call op : Gateway op.Ans) := by
  intro h
  rw [wp_call]
  exact ⟨free,fun _ => trivial,fun _ => trivial⟩

theorem idle_pure (value : α) : Idle (Pure.pure value : Gateway α) := fun _ => trivial

theorem idle_bind {p : Gateway α} {f : α → Gateway β} (first : Idle p) (rest : ∀ value, Idle (f value)) :
    Idle (p >>= f) := by
  intro h
  rw [wp_bind]
  exact wp_mono p (first h) (fun value after _ => rest value after) fun _ _ _ => trivial

theorem idle_catch {p : Gateway α} {handler : Failure → Gateway α} (body : Idle p) (handled : ∀ e, Idle (handler e)) :
    Idle (tryCatch p handler) := by
  intro h
  exact wp_tryCatch_of p handler (body h) fun error after _ => handled error after

theorem idle_release (reservationId : Option String) : Idle (release reservationId) := by
  cases reservationId with
  | none => exact idle_pure ()
  | some r => exact idle_call rfl

theorem idle_consume (reservationId : Option String) : Idle (consume reservationId) := by
  cases reservationId with
  | none => exact idle_pure ()
  | some r => exact idle_call rfl

theorem idle_journal (type tradeId : String) (details : List (String × Json)) : Idle (journal type tradeId details) :=
  idle_bind (idle_call rfl) fun _ => idle_call rfl

theorem idle_abandon (tradeId : String) (reservationId : Option String) (inserted : Bool) (err : Failure) :
    Idle (abandon tradeId reservationId inserted err) := by
  apply idle_bind (idle_release _)
  intro _
  cases inserted with
  | true =>
    apply idle_bind (idle_call rfl)
    intro _
    apply idle_bind (idle_call rfl)
    intro _
    exact idle_bind (idle_journal _ _ _) fun _ => idle_pure _
  | false => exact idle_bind (idle_journal _ _ _) fun _ => idle_pure _

theorem idle_giveUp (tradeId : String) (reservationId : Option String) (status : ConfirmStatus) :
    Idle (giveUp tradeId reservationId status) := by
  apply idle_bind (idle_release _)
  intro _
  apply idle_bind (idle_call rfl)
  intro _
  apply idle_bind (idle_call rfl)
  intro _
  exact idle_bind (idle_journal _ _ _) fun _ => idle_pure _

theorem idle_settle (d : Deployment) (intent : TradeIntent) (outputDelta : ℤ) (prePosition : Option ℤ) :
    Idle (settle d intent outputDelta prePosition) := by
  unfold settle
  split
  · apply idle_catch
    · exact idle_bind (idle_call rfl) fun _ => idle_pure _
    · exact fun _ => idle_pure _
  · exact idle_pure _

theorem idle_conclude (d : Deployment) (intent : TradeIntent) (tradeId : String) (reservationId : Option String)
    (signature : String) (pre : Pair) (prePosition : Option ℤ) :
    Idle (conclude d intent tradeId reservationId signature pre prePosition) := by
  apply idle_bind (idle_call rfl)
  intro _
  apply idle_bind (idle_settle _ _ _ _)
  intro _
  apply idle_bind (idle_consume _)
  intro _
  apply idle_bind (idle_call rfl)
  intro _
  apply idle_bind (idle_call rfl)
  intro _
  exact idle_bind (idle_journal _ _ _) fun _ => idle_pure _

theorem idle_recoverTrade (trade : TradeRow) : Idle (recoverTrade trade) := by
  unfold recoverTrade
  split
  · apply idle_bind (idle_release _)
    intro _
    apply idle_bind (idle_call rfl)
    intro _
    exact idle_bind (idle_call rfl) fun _ => idle_pure _
  · apply idle_bind (idle_call rfl)
    intro status
    split
    · apply idle_bind (idle_consume _)
      intro _
      apply idle_bind (idle_call rfl)
      intro _
      exact idle_bind (idle_call rfl) fun _ => idle_pure _
    · apply idle_bind (idle_release _)
      intro _
      apply idle_bind (idle_call rfl)
      intro _
      exact idle_bind (idle_call rfl) fun _ => idle_pure _

theorem idle_recoverTrades (trades : List TradeRow) (summary : ReconcileSummary) : Idle (recoverTrades trades summary) := by
  induction trades generalizing summary with
  | nil => exact idle_pure _
  | cons trade trades ih => exact idle_bind (idle_recoverTrade trade) fun _ => ih _

theorem idle_recover : Idle recover := idle_bind (idle_call rfl) fun _ => idle_recoverTrades _ _

theorem Idle.wp {p : Gateway α} (idle : Idle p) (d : Deployment) (intent : TradeIntent) (o : ExecuteOptions) (h : Log) :
    p.wp (permits d intent o) (fun _ _ => True) (fun _ _ => True) h :=
  wp_weaken p (fun _ _ free => permits_of_free free) (idle h)

theorem Idle.keeps {p : Gateway α} (idle : Idle p) {d : Deployment} {intent : TradeIntent} {o : ExecuteOptions}
    {P : Log → Prop} (stable : ∀ entry h, entry.1.free → P h → P (entry :: h)) {h : Log} (holds : P h) :
    p.wp (permits d intent o) (fun _ => P) (fun _ _ => True) h := by
  have along : ∀ {E : Failure → Log → Prop} {h}, p.wp (fun _ op => op.free) (fun _ _ => True) E h → P h →
      p.wp (permits d intent o) (fun _ => P) (fun _ _ => True) h := by
    intro E h good holds
    clear idle
    induction p generalizing h with
    | pure value => exact holds
    | throw error => trivial
    | perform op next ih =>
      exact ⟨permits_of_free good.1,fun answer => ih answer (good.2 answer) (stable ⟨op,answer⟩ h good.1 holds)⟩
  exact along (idle h) holds

theorem Idle.then {p : Gateway α} {f : α → Gateway β} (idle : Idle p) {d : Deployment} {intent : TradeIntent}
    {o : ExecuteOptions} {P : Log → Prop} (stable : ∀ entry h, entry.1.free → P h → P (entry :: h)) {h : Log}
    (holds : P h) {Q : β → Log → Prop}
    (rest : ∀ value after, P after → (f value).wp (permits d intent o) Q (fun _ _ => True) after) :
    (p >>= f).wp (permits d intent o) Q (fun _ _ => True) h := by
  rw [wp_bind]
  exact wp_mono p (idle.keeps stable holds) rest fun _ _ _ => trivial

end Idle

section Live
variable {d : Deployment} {intent : TradeIntent} {o : ExecuteOptions} {h : Log} (tradeId : String)

/-- What `guarded` starts from. -/
structure Claimed (o : ExecuteOptions) (h : Log) : Prop where
  won : h.any (wins o.idempotencyKey)
  unread : ∀ entry ∈ h, entry.1.isPolicy = false
  new : ∀ a, acted a h = false

theorem guarded_wp (now : ℤ) (claimed : Claimed o h) :
    (guarded d intent o tradeId now).wp (permits d intent o)
      (fun made after => made.1 = quoteBucketFor intent.inputMint ∧ Guarded intent o after ∧
        ∀ a, a ≠ .reserve → acted a after = false) (fun _ _ => True) h := by
  unfold guarded
  rw [wp_bind,wp_call]
  refine ⟨⟨by rintro a ⟨⟩,claimed.unread⟩,?_,fun _ => trivial⟩
  intro policy
  rw [wp_bind,wp_ofExcept]
  refine ⟨?_,fun _ _ => trivial⟩
  rintro ⟨⟩ static
  rw [wp_bind,wp_ofExcept]
  refine ⟨?_,fun _ _ => trivial⟩
  intro _ _
  unfold assertMintsSupported
  simp only [wp_bind,wp_call,wp_reject]
  refine ⟨permits_of_free rfl,?_,fun _ => trivial⟩
  rintro mints
  refine ⟨fun _ => trivial,?_⟩
  intro supported
  have allowed : policy.allowToken2022 = true ∨ mints.1.isToken2022 = false ∧ mints.2.isToken2022 = false := by
    by_cases allows : policy.allowToken2022
    · exact .inl allows
    · simp_all
  have won : ∀ entry entry' : Record, (entry :: entry' :: h).any (wins o.idempotencyKey) = true := by
    simp [claimed.won]
  cases bucketed : quoteBucketFor intent.inputMint with
  | none =>
    refine ⟨rfl,⟨won _ _,policy,by simp,static,⟨mints,by simp,allowed⟩,?_⟩,?_⟩
    · intro bucket found
      rw [bucketed] at found
      cases found
    · intro a _
      simp [acted_cons,Op.act,claimed.new]
  | some bucket =>
    dsimp only
    rw [wp_bind,wp_call]
    refine ⟨⟨?_,trivial⟩,?_,fun _ => trivial⟩
    · intro a _
      exact ⟨won _ _,by simp [acted_cons,Op.act,claimed.new]⟩
    · rintro (⟨id,hour,day⟩ | _)
      · refine ⟨rfl,⟨by simp [claimed.won],policy,by simp,static,⟨mints,by simp,allowed⟩,?_⟩,?_⟩
        · intro other found
          rw [bucketed] at found
          cases found
          exact ⟨_,id,hour,day,List.mem_cons_self,rfl,rfl,rfl⟩
        · intro a other
          simp [acted_cons,Op.act,claimed.new,Ne.symm other]
      · trivial

theorem register_wp (now : ℤ) (bucket : Option QuoteBucket) (reservationId : Option String)
    (same : bucket = quoteBucketFor intent.inputMint) (guarded : Guarded intent o h)
    (new : ∀ a, a ≠ .reserve → acted a h = false) :
    (register d intent o tradeId now bucket reservationId).wp (permits d intent o)
      (fun _ after => Covered d intent o after ∧ acted .sign after = false ∧ acted .broadcast after = false)
      (fun _ _ => True) h := by
  unfold register readPair
  rw [wp_bind,wp_call]
  refine ⟨permits_of_free rfl,?_,fun _ => trivial⟩
  intro pre
  have read : (readPosition d intent).wp (permits d intent o)
      (fun _ after => Guarded intent o after ∧ (∀ a, a ≠ .reserve → acted a after = false) ∧
        ⟨.readPair d.pubkey intent.inputMint intent.outputMint,.ok pre⟩ ∈ after) (fun _ _ => True)
      (⟨.readPair d.pubkey intent.inputMint intent.outputMint,.ok pre⟩ :: h) := by
    unfold readPosition
    split
    · rw [wp_bind,wp_call]
      refine ⟨permits_of_free rfl,?_,fun _ => trivial⟩
      intro position
      refine ⟨(guarded.cons _).cons _,?_,by simp⟩
      intro a other
      simp [acted_cons,Op.act,new a other]
    · refine ⟨guarded.cons _,?_,by simp⟩
      intro a other
      simp [acted_cons,Op.act,new a other]
  rw [wp_bind]
  apply wp_mono _ read _ (fun _ _ _ => trivial)
  rintro position after ⟨guarded,new,seen⟩
  rw [wp_bind,wp_reject]
  refine ⟨fun _ => trivial,?_⟩
  intro enough
  rw [wp_bind,wp_call]
  refine ⟨⟨?_,rfl⟩,?_,fun _ => trivial⟩
  · intro a act
    cases act
    exact ⟨guarded.won,new _ (by simp)⟩
  · intro _
    refine ⟨⟨guarded.cons _,pre,List.mem_cons_of_mem _ seen,?_⟩,?_,?_⟩
    · rw [← same]
      omega
    · simp [acted_cons,Op.act,new .sign]
    · simp [acted_cons,Op.act,new .broadcast]

/-- The row is there and nothing is signed. -/
structure Ready (d : Deployment) (intent : TradeIntent) (o : ExecuteOptions) (h : Log) : Prop where
  covered : Covered d intent o h
  unsigned : acted .sign h = false
  unsent : acted .broadcast h = false

theorem Ready.cons (entry : Record) (h : Log) (free : entry.1.free) (ready : Ready d intent o h) :
    Ready d intent o (entry :: h) where
  covered := ready.covered.cons entry
  unsigned := (acted_free free .sign entry.2).trans ready.unsigned
  unsent := (acted_free free .broadcast entry.2).trans ready.unsent

/-- Signed, and not sent. -/
structure Signed (o : ExecuteOptions) (h : Log) : Prop where
  won : h.any (wins o.idempotencyKey)
  signed : acted .sign h = true
  unsent : acted .broadcast h = false

theorem Signed.cons (entry : Record) (h : Log) (free : entry.1.free) (signed : Signed o h) : Signed o (entry :: h) where
  won := by simp [signed.won]
  signed := (acted_free free .sign entry.2).trans signed.signed
  unsent := (acted_free free .broadcast entry.2).trans signed.unsent

theorem land_wp (now : ℤ) (bucket : Option QuoteBucket) (reservationId : Option String) (pre : Pair)
    (prePosition : Option ℤ) (ready : Ready d intent o h) :
    (land d intent o tradeId now bucket reservationId pre prePosition).wp (permits d intent o) (fun _ _ => True)
      (fun _ _ => True) h := by
  unfold land
  apply Idle.then (idle_call rfl) Ready.cons ready
  intro _ h ready
  have noted : Idle (onlyIf reservationId.isSome (call (Op.appendJournal ⟨"trade.reserved",tradeId,now,
      [("bucket",Json.nullable (bucket.map QuoteBucket.text)),("amount",.str (toString intent.inputAmount))]⟩))) := by
    intro h
    rw [wp_onlyIf,wp_call]
    exact ⟨fun _ => ⟨rfl,fun _ => trivial,fun _ => trivial⟩,fun _ => trivial⟩
  apply noted.then Ready.cons ready
  intro _ h ready
  rw [wp_bind,wp_call]
  refine ⟨permits_of_free rfl,?_,fun _ => trivial⟩
  intro sim
  let answer : Record := ⟨.simulate intent.unsignedTxBase64,.ok sim⟩
  have seen : Ready d intent o (answer :: h) ∧ answer ∈ answer :: h := ⟨ready.cons _ _ rfl,List.mem_cons_self⟩
  have stable : ∀ (entry : Record) (h : Log), entry.1.free → Ready d intent o h ∧ answer ∈ h →
      Ready d intent o (entry :: h) ∧ answer ∈ entry :: h :=
    fun entry h free both => ⟨both.1.cons entry h free,List.mem_cons_of_mem _ both.2⟩
  apply Idle.then (idle_journal _ _ _) stable seen
  rintro _ h ⟨ready,simulated⟩
  rw [wp_bind,wp_reject]
  refine ⟨fun _ => trivial,?_⟩
  intro fine
  have passed : Passed d intent o h := ⟨ready.covered,sim,simulated,by simpa using fine⟩
  rw [wp_bind,wp_call]
  refine ⟨⟨?_,passed,rfl⟩,?_,fun _ => trivial⟩
  · rintro a ⟨⟩
    exact ⟨ready.covered.guarded.won,ready.unsigned⟩
  intro signed
  have ready' : Signed o (⟨.sign intent.unsignedTxBase64,.ok signed⟩ :: h) :=
    ⟨by simp [ready.covered.guarded.won],by simp [acted_cons,Op.act],by simp [acted_cons,Op.act,ready.unsent]⟩
  apply Idle.then (idle_call rfl) Signed.cons ready'
  intro _ h ready
  apply Idle.then (idle_call rfl) Signed.cons ready
  intro _ h ready
  apply Idle.then (idle_journal _ _ _) Signed.cons ready
  intro _ h ready
  rw [wp_bind,wp_reject]
  refine ⟨fun _ => trivial,?_⟩
  intro _
  rw [wp_bind,wp_tryCatch,wp_call]
  refine ⟨⟨?_,ready.signed⟩,?_,fun _ => trivial⟩
  · rintro a ⟨⟩
    exact ⟨ready.won,ready.unsent⟩
  intro signature
  apply Idle.wp
  apply idle_bind (idle_call rfl)
  intro _
  apply idle_bind (idle_call rfl)
  intro _
  apply idle_bind (idle_call rfl)
  intro _
  apply idle_bind (idle_call rfl)
  intro _
  apply idle_bind (idle_journal _ _ _)
  intro _
  apply idle_bind (idle_call rfl)
  intro status
  split
  · exact idle_giveUp _ _ _
  · exact idle_conclude _ _ _ _ _ _ _

theorem idle_duplicate : Idle (do
    let prior ← call (Op.getTradeByIdempotency o.idempotencyKey)
    return ({
      tradeId := (prior.map TradeRow.id).getD tradeId
      state := (prior.map TradeRow.state).getD .rejected
      signature := prior.bind TradeRow.signature
      summary := "duplicate request — this idempotency key was already used"
      error := some (GuardCode.duplicateIntent.text,"idempotency key already used") } : ExecuteResult)) :=
  idle_bind (idle_call rfl) fun _ => idle_pure _

theorem live_permitted : (live d intent o).wp (permits d intent o) (fun _ _ => True) (fun _ _ => True) [] := by
  unfold live
  rw [wp_bind,wp_call]
  refine ⟨permits_of_free rfl,?_,fun _ => trivial⟩
  intro now
  rw [wp_bind,wp_call]
  refine ⟨permits_of_free rfl,?_,fun _ => trivial⟩
  intro tradeId
  rw [wp_bind,wp_call]
  refine ⟨⟨by rintro a ⟨⟩,rfl,by simp [Op.isClaim]⟩,?_,fun _ => trivial⟩
  rintro (_ | _)
  · exact (idle_duplicate tradeId).wp d intent o _
  · have claimed : Claimed o (⟨.claimIdempotency o.idempotencyKey tradeId now,.ok true⟩ :: ⟨.newTradeId,.ok tradeId⟩ ::
        [⟨.now,.ok now⟩]) :=
      ⟨by simp [wins],by simp [Op.isPolicy],fun a => by simp [acted,Op.act]⟩
    simp only [if_true]
    rw [wp_attempt]
    apply wp_mono _ (guarded_wp tradeId now claimed)
    · rintro ⟨bucket,reservationId⟩ h ⟨same,guarded,new⟩
      dsimp only
      rw [wp_attempt]
      apply wp_mono _ (register_wp tradeId now bucket reservationId same guarded new)
      · rintro ⟨pre,prePosition⟩ h ⟨covered,unsigned,unsent⟩
        dsimp only
        rw [wp_attempt]
        apply wp_mono _ (land_wp tradeId now bucket reservationId pre prePosition ⟨covered,unsigned,unsent⟩)
        · exact fun _ _ _ => trivial
        · exact fun _ _ _ => (idle_abandon _ _ _ _).wp d intent o _
      · exact fun _ _ _ => (idle_abandon _ _ _ _).wp d intent o _
    · exact fun _ _ _ => (idle_abandon _ _ _ _).wp d intent o _

end Live

def refused (k : String) : Record → Bool
  | ⟨.claimIdempotency key _ _,.ok false⟩ => key = k
  | _ => false

def isDuplicate (r : ExecuteResult) : Prop :=
  r.error = some (GuardCode.duplicateIntent.text,"idempotency key already used")

/-- All that a call whose key was used before may still do. -/
def looksUp : Op → Bool
  | .now | .newTradeId | .claimIdempotency _ _ _ | .getTradeByIdempotency _ => true
  | _ => false

section Duplicate
variable {d : Deployment} {intent : TradeIntent} {o : ExecuteOptions} {k : String}

/-- What a call without its key may do. -/
def without (o : ExecuteOptions) (k : String) (h : Log) (op : Op) : Prop :=
  (looksUp op = true ∨ h.any (wins o.idempotencyKey) = true) ∧
    (h.any (refused k) → op = .getTradeByIdempotency o.idempotencyKey)

theorem never_refused {α : Type} {Q : α → Log → Prop} {E : Failure → Log → Prop} (p : Gateway α) {h : Log}
    (good : p.wp (permits d intent o) Q E h) (won : h.any (wins o.idempotencyKey)) (accepted : h.any (refused k) = false) :
    p.wp (without o k) (fun _ h => h.any (refused k) = false) (fun _ h => h.any (refused k) = false) h := by
  induction p generalizing h with
  | pure value => exact accepted
  | throw error => exact accepted
  | perform op next ih =>
    refine ⟨⟨.inr won,fun lost => absurd lost (by simp [accepted])⟩,?_⟩
    intro answer
    apply ih answer (good.2 answer)
    · simp [won]
    · have other : refused k ⟨op,answer⟩ = false := by
        cases op with
        | claimIdempotency key tradeId now =>
          obtain ⟨entry,inside,winning⟩ := List.any_eq_true.mp won
          have first := good.1.2.2 entry inside
          obtain ⟨op,answer⟩ := entry
          cases op <;> first | cases winning | cases first
        | _ => rfl
      simp only [List.any_cons,other,accepted,Bool.or_self]

theorem live_refused : (live d intent o).wp (without o k) (fun r h => h.any (refused k) → isDuplicate r)
    (fun _ h => h.any (refused k) → ∃ error, ⟨.getTradeByIdempotency o.idempotencyKey,.error error⟩ ∈ h) [] := by
  have permitted : (live d intent o).wp (permits d intent o) (fun _ _ => True) (fun _ _ => True) [] := live_permitted
  unfold live at permitted ⊢
  rw [wp_bind,wp_call] at permitted ⊢
  refine ⟨⟨.inl rfl,by simp⟩,?_,fun _ => by simp [refused]⟩
  intro now
  have permitted := permitted.2.1 now
  rw [wp_bind,wp_call] at permitted ⊢
  refine ⟨⟨.inl rfl,by simp [refused]⟩,?_,fun _ => by simp [refused]⟩
  intro tradeId
  have permitted := permitted.2.1 tradeId
  rw [wp_bind,wp_call] at permitted ⊢
  refine ⟨⟨.inl rfl,by simp [refused]⟩,?_,fun _ => by simp [refused]⟩
  rintro (_ | _)
  · simp only [Bool.false_eq_true,if_false]
    rw [wp_bind,wp_call]
    exact ⟨⟨.inl rfl,fun _ => rfl⟩,fun _ _ => rfl,fun error _ => ⟨error,List.mem_cons_self⟩⟩
  · apply wp_mono _ (never_refused _ (permitted.2.1 true) (by simp [wins]) (by simp [refused]))
    · intro r h accepted lost
      simp [accepted] at lost
    · intro _ h accepted lost
      simp [accepted] at lost

end Duplicate

section Run
variable {d : Deployment} {k : String} {a : Act}

def Call.permits (d : Deployment) : Call → Log → Op → Prop
  | .live intent o => Idempotency.permits d intent o
  | .recover => fun _ op => op.free

theorem program_permitted (d : Deployment) (call : Call) :
    (Call.program d call).wp (Call.permits d call) (fun _ _ => True) (fun _ _ => True) [] := by
  cases call with
  | live intent o =>
    change wp _ (_ >>= _) _ _ _
    rw [wp_bind]
    exact wp_mono _ live_permitted (fun _ _ _ => trivial) fun _ _ _ => trivial
  | recover => exact idle_bind idle_recover (fun _ => idle_pure ()) []

theorem permitted {c : Pool} (launched : (kernel d).Launched c) {i : ℕ} {op : Op}
    {next : Except Failure op.Ans → Gateway Unit} {h : Log} (here : c.threads i = some ⟨.perform op next,h⟩) :
    ∃ call, Ran (Call.program d call) h (.perform op next) ∧ Call.permits d call h op := by
  obtain ⟨call,ran⟩ := launched i _ here
  exact ⟨call,ran,(ran.wp (program_permitted d call)).1⟩

theorem asks_own {intent : TradeIntent} {o : ExecuteOptions} {h : Log} {q : Gateway Unit}
    (ran : Ran (Call.program d (.live intent o)) h q) (asked : h.any (asks k)) : o.idempotencyKey = k := by
  obtain ⟨entry,inside,asking⟩ := List.any_eq_true.mp asked
  obtain ⟨before,after,rfl⟩ := List.append_of_mem inside
  have allowed := ran.allowed (program_permitted d _)
  obtain ⟨op,answer⟩ := entry
  cases op with
  | claimIdempotency key tradeId now => exact allowed.2.1.symm.trans (by simpa [asks] using asking)
  | _ => cases asking

def counts (k : String) (a : Act) (h : Log) (op : Op) : Bool := op.act = some a && h.any (asks k)

/-- The call has the key and has not performed the act. -/
def holds (k : String) (a : Act) (h : Log) : Prop := h.any (wins k) = true ∧ acted a h = false

def closed (k : String) (s : KernelStore) : Prop := k ∈ s.idempotency.map (·.1)

theorem idempotency_updateTrade (s : KernelStore) (id : String) (change : TradeRow → TradeRow) :
    (s.updateTrade id change).idempotency = s.idempotency := by
  unfold KernelStore.updateTrade
  split <;> rfl

theorem idempotency_setSpend (s : KernelStore) (id : String) (from_ : SpendState → Bool) (state : SpendState) :
    (s.setSpend id from_ state).idempotency = s.idempotency := by
  unfold KernelStore.setSpend
  split
  · split <;> rfl
  · rfl

theorem idempotency_handle (choice : Choice) (op : Op) (s : KernelStore) (other : op.isClaim = false) :
    (handle choice op s).2.idempotency = s.idempotency := by
  cases op with
  | claimIdempotency key tradeId now => cases other
  | reserve args =>
    simp only [handle,Prod.map,id,KernelStore.reserve]
    split_ifs <;> try rfl
    split <;> rfl
  | insertTrade row reservationId =>
    simp only [handle,Prod.map,id,KernelStore.insertTrade]
    split_ifs <;> try rfl
    split <;> rfl
  | persistSigned id signedWire signature now => exact idempotency_updateTrade s id _
  | setSignature id signature now => exact idempotency_updateTrade s id _
  | setState id state now => exact idempotency_updateTrade s id _
  | fail id state error now => exact idempotency_updateTrade s id _
  | releaseReservation r => exact idempotency_setSpend s r _ _
  | consumeReservation r => exact idempotency_setSpend s r _ _
  | _ => rfl

theorem claim_handle (choice : Choice) (key tradeId : String) (now : ℤ) (s : KernelStore) :
    (handle choice (.claimIdempotency key tradeId now) s = (.ok false,s) ∧ closed key s) ∨
      ((handle choice (.claimIdempotency key tradeId now) s).1 = .ok true ∧ ¬closed key s ∧
        (handle choice (.claimIdempotency key tradeId now) s).2.idempotency = s.idempotency ++ [(key,tradeId,now)]) := by
  unfold closed
  by_cases used : key ∈ s.idempotency.map (·.1)
  · left
    simp only [handle,KernelStore.claimIdempotency,if_pos used]
    exact ⟨rfl,used⟩
  · right
    simp only [handle,KernelStore.claimIdempotency,if_neg used]
    exact ⟨rfl,used,rfl⟩

theorem closed_handle (choice : Choice) (op : Op) (s : KernelStore) (gone : closed k s) :
    closed k (handle choice op s).2 := by
  cases op with
  | claimIdempotency key tradeId now =>
    rcases claim_handle choice key tradeId now s with ⟨same,_⟩ | ⟨_,_,grown⟩
    · rw [same]
      exact gone
    · unfold closed at gone ⊢
      rw [grown,List.map_append]
      exact List.mem_append_left _ gone
  | _ =>
    unfold closed at gone ⊢
    rw [idempotency_handle _ _ _ rfl]
    exact gone

theorem closed_step (c : Pool) (event : Event Call Choice) (gone : closed k c.state) :
    closed k ((kernel d).step c event).state := by
  cases event with
  | start call => exact gone
  | ambient choice => exact gone
  | crash => exact gone
  | perform i choice =>
    rcases (kernel d).perform_cases c i choice with ⟨op,next,history,here⟩ | idle
    · rw [(kernel d).perform_eq here]
      exact closed_handle choice op c.state gone
    · rw [idle]
      exact gone

theorem gains {choice : Choice} {op : Op} {s : KernelStore} (won : wins k ⟨op,(handle choice op s).1⟩) :
    ¬closed k s ∧ closed k (handle choice op s).2 := by
  cases op with
  | claimIdempotency key tradeId now =>
    rcases claim_handle choice key tradeId now s with ⟨same,_⟩ | ⟨answer,waiting,grown⟩
    · rw [same] at won
      cases won
    · rw [answer] at won
      have named : key = k := by simpa [wins] using won
      subst named
      refine ⟨waiting,?_⟩
      unfold closed
      rw [grown]
      simp
  | _ => cases won

theorem rationed (d : Deployment) (k : String) (a : Act) :
    (kernel d).Rationed (counts k a) ((kernel d).Launched) (holds k a) (closed k) where
  keeps c event launched := (kernel d).launched_step launched event
  stays c event _ gone := closed_step c event gone
  fresh held := by simp [holds] at held
  gain c i choice op next history _ here before after := by
    obtain ⟨won,undone⟩ := after
    simp only [acted_cons,Bool.or_eq_false_iff] at undone
    have lacking : history.any (wins k) = false := by
      rw [Bool.eq_false_iff]
      exact fun won => before ⟨won,undone.2⟩
    simp only [List.any_cons,lacking,Bool.or_false] at won
    exact gains won
  use c i op next history launched here counted := by
    unfold counts at counted
    simp only [Bool.and_eq_true,decide_eq_true_eq] at counted
    obtain ⟨call,ran,allowed⟩ := permitted launched here
    cases call with
    | live intent o =>
      have own := asks_own ran counted.2
      have now := allowed.1 a counted.1
      rw [own] at now
      refine ⟨now,?_⟩
      rintro answer ⟨_,undone⟩
      simp [acted_cons,counted.1] at undone
    | recover =>
      exfalso
      have free : op.free := allowed
      simp [Op.free,counted.1] at free

theorem sole_winner (d : Deployment) (k : String) (s : KernelStore) (events : List (Event Call Choice)) :
    ∀ i j t u, ((kernel d).run (Config.initial s) events).threads i = some t →
      ((kernel d).run (Config.initial s) events).threads j = some u →
        t.history.any (wins k) → u.history.any (wins k) → i = j := by
  have nothing : (kernel d).Rationed (fun _ _ => false) (fun _ => True) (fun h => h.any (wins k)) (closed k) :=
    { keeps := fun _ _ _ => trivial
      stays := fun c event _ gone => closed_step c event gone
      fresh := by simp
      gain := by
        intro c i choice op next history _ _ before after
        simp only [List.any_cons,Bool.or_eq_true] at after
        exact gains (after.resolve_right before)
      use := by
        intro c i op next history _ _ counted
        cases counted }
  have along : ∀ (events : List (Event Call Choice)) (c : Pool),
      System.Sole (fun h => h.any (wins k) = true) (closed k) c →
        System.Sole (fun h => h.any (wins k) = true) (closed k) ((kernel d).run c events) := by
    intro events
    induction events with
    | nil => exact fun _ sole => sole
    | cons event events ih => exact fun c sole => ih _ (System.Sole.step nothing trivial sole event)
  have sole := along events (Config.initial s) ⟨fun _ i t found => by simp [Config.initial] at found,
    fun i j t u found => by simp [Config.initial] at found⟩
  exact sole.unique

/-- The claim and the lookup are statements of the store, which answer. -/
def answers : Record → Prop
  | ⟨.claimIdempotency _ _ _,.error _⟩ | ⟨.getTradeByIdempotency _,.error _⟩ => False
  | _ => True

theorem answers_handle (choice : Choice) (op : Op) (s : KernelStore) : answers ⟨op,(handle choice op s).1⟩ := by
  cases op with
  | claimIdempotency key tradeId now => trivial
  | getTradeByIdempotency key => trivial
  | _ => exact trivial

theorem answered_run (d : Deployment) (s : KernelStore) (events : List (Event Call Choice)) :
    System.Learned (fun _ h => ∀ entry ∈ h, answers entry) ((kernel d).run (Config.initial s) events) := by
  have along : ∀ (events : List (Event Call Choice)) (c : Pool), System.Learned (fun _ h => ∀ entry ∈ h, answers entry) c →
      System.Learned (fun _ h => ∀ entry ∈ h, answers entry) ((kernel d).run c events) := by
    intro events
    induction events with
    | nil => exact fun _ learned => learned
    | cons event events ih =>
      intro c learned
      apply ih
      apply (kernel d).learned_step learned
      · intro _ entry inside
        cases inside
      · exact fun _ heard => heard
      · intro i choice op next history _ _ heard entry inside
        rcases List.mem_cons.mp inside with rfl | old
        · exact answers_handle choice op c.state
        · exact heard entry old
  apply along events
  intro i t found
  cases found

/-- A call whose key was used before, and where it stands. -/
structure Duplicate (d : Deployment) (k : String) (t : Thread Op Op.Ans Failure) : Prop where
  looked : ∀ entry ∈ t.history, looksUp entry.1
  stands : (∃ next, t.program = .perform (.getTradeByIdempotency k) next) ∨
    ∃ intent o r, o.idempotencyKey = k ∧ t.program = .pure () ∧ Ran (live d intent o) t.history (.pure r) ∧ isDuplicate r

theorem duplicate_of_refused {intent : TradeIntent} {o : ExecuteOptions} {t : Thread Op Op.Ans Failure}
    (ran : Ran (Call.program d (.live intent o)) t.history t.program) (asked : t.history.any (asks k))
    (lost : t.history.any (wins k) = false) (heard : ∀ entry ∈ t.history, answers entry) : Duplicate d k t := by
  have own := asks_own ran asked
  have turned : t.history.any (refused k) = true := by
    obtain ⟨⟨op,answer⟩,inside,asking⟩ := List.any_eq_true.mp asked
    refine List.any_eq_true.mpr ⟨⟨op,answer⟩,inside,?_⟩
    have losing : wins k ⟨op,answer⟩ = false := by simpa using List.any_eq_false.mp lost _ inside
    have answered := heard _ inside
    cases op with
    | claimIdempotency key tradeId now =>
      rcases answer with error | (_ | _)
      · cases answered
      · exact asking
      · rw [show wins k ⟨.claimIdempotency key tradeId now,.ok true⟩ =
          asks k ⟨.claimIdempotency key tradeId now,.ok true⟩ from rfl,asking] at losing
        cases losing
    | _ => cases asking
  obtain ⟨first,ran,same⟩ := ran.of_map
  have good : (live d intent o).wp (without o k) _ _ [] := live_refused
  constructor
  · intro entry inside
    obtain ⟨before,after,split⟩ := List.append_of_mem inside
    rw [split] at ran
    rcases (ran.allowed good).1 with looking | won
    · exact looking
    · rw [own] at won
      rw [split] at lost
      simp [won] at lost
  · cases first with
    | pure r => exact .inr ⟨intent,o,r,own,same,ran,ran.wp good turned⟩
    | throw error =>
      obtain ⟨error,inside⟩ := ran.wp good turned
      cases heard _ inside
    | perform op next =>
      have looking := (ran.wp good).1.2 turned
      rw [own] at looking
      subst looking
      exact .inl ⟨_,same⟩

/-- In any run of any number of calls over any store, a key is won by at most one call;
the calls for it together reserve, insert a row, sign and broadcast at most once each; the
others that have their answer look up the prior trade, do nothing else, and answer with
`DUPLICATE_INTENT`; and whoever signs has passed every check. -/
theorem idempotent_money_path (d : Deployment) (s : KernelStore) (k : String) (events : List (Event Call Choice)) :
    (∀ a, (kernel d).tally (counts k a) (Config.initial s) events ≤ 1) ∧
    (∀ i j t u, ((kernel d).run (Config.initial s) events).threads i = some t →
      ((kernel d).run (Config.initial s) events).threads j = some u →
        t.history.any (wins k) → u.history.any (wins k) → i = j) ∧
    (∀ i t, ((kernel d).run (Config.initial s) events).threads i = some t → t.history.any (asks k) →
      t.history.any (wins k) ∨ Duplicate d k t) ∧
    ∀ i tx next h, ((kernel d).run (Config.initial s) events).threads i = some ⟨.perform (.sign tx) next,h⟩ →
      ∃ intent o, Ran (Call.program d (.live intent o)) h (.perform (.sign tx) next) ∧ Passed d intent o h ∧
        tx = intent.unsignedTxBase64 := by
  have launched := (kernel d).launched_run ((kernel d).launched_initial s) events
  refine ⟨?_,sole_winner d k s events,?_,?_⟩
  · intro a
    apply (rationed d k a).tally_le_one ((kernel d).launched_initial s)
    constructor
    · intro _ i t found
      cases found
    · intro i j t u found
      cases found
  · intro i t found asked
    by_cases won : t.history.any (wins k)
    · exact .inl won
    right
    obtain ⟨call,ran⟩ := launched i t found
    cases call with
    | recover =>
      exfalso
      obtain ⟨entry,inside,asking⟩ := List.any_eq_true.mp asked
      obtain ⟨before,after,same⟩ := List.append_of_mem inside
      rw [same] at ran
      have free := ran.allowed (program_permitted d .recover)
      obtain ⟨op,answer⟩ := entry
      cases op <;> first | cases asking | cases free
    | live intent o =>
      exact duplicate_of_refused ran asked (Bool.eq_false_iff.mpr won) (answered_run d s events i t found)
  · intro i tx next h here
    obtain ⟨call,ran,allowed⟩ := permitted launched here
    cases call with
    | live intent o => exact ⟨intent,o,ran,allowed.2⟩
    | recover => cases allowed

end Run

end Idempotency

end RatifyOs.Kernel
