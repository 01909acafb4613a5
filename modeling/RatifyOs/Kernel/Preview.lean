import RatifyOs.Async.Crash
import RatifyOs.Kernel.Gateway

/-! `#preview`: what a trade would meet, without a claim, a reservation or a row. -/
namespace RatifyOs.Kernel
open Async Data
open Async.Program hiding pure throw

/-- A preview also reads what counts against the caps. -/
inductive PreviewOp where
  | gateway (op : Op)
  | usage (bucket : QuoteBucket) (now : ℤ)

abbrev PreviewOp.Ans : PreviewOp → Type
  | gateway op => op.Ans
  | usage _ _ => ℤ × ℤ

abbrev Preview := Program PreviewOp PreviewOp.Ans Failure

def previewHandle (choice : Choice) : (op : PreviewOp) → KernelStore → Except Failure op.Ans × KernelStore
  | .gateway op,s => handle choice op s
  | .usage bucket now,s => (.ok (s.usage bucket now),s)

def Gateway.toPreview {α : Type} (p : Gateway α) : Preview α := p.inline fun op => call (PreviewOp.gateway op)

section
variable (d : Deployment) (intent : TradeIntent) (o : ExecuteOptions)

def assertWithinCaps (bucket : QuoteBucket) (amount : ℤ) (caps : SpendCaps) (used : ℤ × ℤ) : Except Failure Unit := do
  refuse (amount > caps.perTrade) .capExceeded s!"{bucket.upper} per-trade cap exceeded"
  refuse (used.1 + amount > caps.perHour) .capExceeded s!"{bucket.upper} per-hour cap exceeded"
  refuse (used.2 + amount > caps.perDay) .capExceeded s!"{bucket.upper} per-day cap exceeded"

/-- Up to the simulation: the stages that `guarded` has too. -/
def previewGuarded : Preview Unit := do
  let policy ← call (PreviewOp.gateway .policy)
  Program.ofExcept (staticGuards policy intent ⟨true,o.confirmedByUser⟩)
  Program.ofExcept (assertSettleable d intent)
  (assertMintsSupported intent policy).toPreview
  match quoteBucketFor intent.inputMint with
  | none => return ()
  | some bucket =>
    let caps := match bucket with
      | .sol => policy.capsSol
      | .usdc => policy.capsUsdc
    let now ← call (PreviewOp.gateway .now)
    let used ← call (PreviewOp.usage bucket now)
    Program.ofExcept (assertWithinCaps bucket intent.inputAmount caps used)

def preview : Preview ExecuteResult := do
  let tradeId ← call (PreviewOp.gateway .newTradeId)
  tryCatch (do
    previewGuarded d intent o
    let sim ← call (PreviewOp.gateway (.simulate intent.unsignedTxBase64))
    reject (¬sim.ok) (.guard .simulationFailed "preflight simulation failed" [("err",sim.err.getD "unknown")])
    return { tradeId, state := .reserved, simulated := true, summary := intent.summary }) fun err =>
    return errorResult tradeId err true

end

def Failure.guardCode : Failure → Option GuardCode
  | guard code _ _ => some code
  | other _ => none

/-- Whether the stages were passed, and the code of the refusal where they were not. -/
def admission {α : Type} (answer : Except Failure α) : Except (Option GuardCode) Unit :=
  (answer.map fun _ => ()).mapError Failure.guardCode

def PreviewOp.reads : PreviewOp → Prop
  | gateway .policy | gateway .now | gateway .newTradeId | gateway (.inspect _ _) | gateway (.simulate _) | usage _ _ => True
  | _ => False

section
variable {d : Deployment} {intent : TradeIntent} {o : ExecuteOptions} {choice : Choice} {s : KernelStore}

@[simp] theorem outcome_toPreview {α : Type} (p : Gateway α) :
    p.toPreview.outcome (previewHandle choice) s = p.outcome (handle choice) s := by
  unfold Gateway.toPreview
  rw [outcome_inline]
  simp only [outcome_call]
  rfl

theorem previewHandle_reads {op : PreviewOp} (reads : op.reads) : (previewHandle choice op s).2 = s := by
  cases op with
  | usage bucket now => rfl
  | gateway op => cases op <;> first | rfl | cases reads

/-- A policy that lets trades through makes no difference between a rehearsal and the trade. -/
theorem staticGuards_dryRun {policy : PolicyConfig} (enabled : policy.executionEnabled = true) (confirmed : Bool) :
    staticGuards policy intent ⟨true,confirmed⟩ = staticGuards policy intent ⟨false,confirmed⟩ := by
  unfold staticGuards
  simp only [enabled,not_true,and_false]

/-- The two implementations of the caps compare the same sums in the same order. -/
theorem admission_caps (args : ReserveArgs) {id : String} (fresh : s.spends.find? id = none) :
    admission (assertWithinCaps args.bucket args.amount args.caps (s.usage args.bucket args.now)) =
      match (s.reserve args id).1 with
      | .ok (.ok _ _ _) => .ok ()
      | .ok (.denied _ _ _) => .error (some .capExceeded)
      | .error _ => .error none := by
  obtain ⟨spends,inserted⟩ := Table.insert?_of_absent
    (r := (⟨id,args.tradeId,args.bucket,args.amount,.reserved,args.now⟩ : Spend)) fresh
  unfold assertWithinCaps KernelStore.reserve KernelStore.usage
  by_cases trade : args.amount > args.caps.perTrade
  · simp [refuse,trade]
    rfl
  by_cases hour : s.sumActive args.bucket (args.now - hourMs) + args.amount > args.caps.perHour
  · simp [refuse,trade,hour]
    rfl
  by_cases day : s.sumActive args.bucket (args.now - dayMs) + args.amount > args.caps.perDay
  · simp [refuse,trade,hour,day]
    rfl
  · simp [refuse,trade,hour,day,inserted]
    rfl

theorem spends_claimed (key tradeId : String) (now : ℤ) : (s.claimIdempotency key tradeId now).2.spends = s.spends := by
  unfold KernelStore.claimIdempotency
  split <;> rfl

theorem outcome_mints (policy : PolicyConfig) : ∃ answer, ∀ s,
    (assertMintsSupported intent policy).outcome (handle choice) s = (answer,s) := by
  unfold assertMintsSupported
  simp only [outcome_bind,outcome_call,outcome_reject,handle]
  cases choice.reply (.inspect intent.inputMint intent.outputMint) with
  | ok infos => exact ⟨_,fun _ => rfl⟩
  | error error => exact ⟨.error error,fun _ => rfl⟩

theorem mints_reads (policy : PolicyConfig) (h : History PreviewOp PreviewOp.Ans Failure) :
    (assertMintsSupported intent policy).toPreview.wp (fun _ op => op.reads) (fun _ _ => True) (fun _ _ => True) h := by
  unfold Gateway.toPreview assertMintsSupported
  change ((call (PreviewOp.gateway (.inspect intent.inputMint intent.outputMint))).attempt _ _).wp _ _ _ _
  rw [wp_attempt,wp_call]
  refine ⟨trivial,fun infos => ?_,fun _ => trivial⟩
  change ((reject _ _ : Gateway Unit).inline _).wp _ _ _ _
  unfold reject
  split <;> trivial

theorem preview_reads : (preview d intent o).wp (fun _ op => op.reads) (fun _ _ => True) (fun _ _ => True) [] := by
  unfold preview previewGuarded
  simp only [wp_bind,wp_call,wp_tryCatch,wp_ofExcept]
  refine ⟨trivial,fun tradeId => ⟨trivial,fun policy => ⟨fun _ _ => ⟨fun _ _ => ?_,?_⟩,?_⟩,?_⟩,?_⟩
  · refine wp_mono _ (mints_reads policy _) (fun _ h _ => ?_) fun _ _ _ => trivial
    cases quoteBucketFor intent.inputMint with
    | none => simp [PreviewOp.reads]
    | some bucket => simp [PreviewOp.reads]
  all_goals intros; trivial

end

theorem admission_agrees (d : Deployment) (intent : TradeIntent) (o : ExecuteOptions) (tradeId : String) (choice : Choice)
    (s : KernelStore) (enabled : ∀ policy, choice.reply .policy = .ok policy → policy.executionEnabled = true)
    (fresh : s.spends.find? choice.id = none) :
    admission ((previewGuarded d intent o).outcome (previewHandle choice) s).1 =
      admission ((guarded d intent o tradeId choice.now).outcome (handle choice)
        (s.claimIdempotency o.idempotencyKey tradeId choice.now).2).1 ∧
    ∀ choices, ((preview d intent o).exec previewHandle choices s).2 = s := by
  refine ⟨?_,fun choices => ?_⟩
  · have same := spends_claimed (s := s) o.idempotencyKey tradeId choice.now
    generalize (s.claimIdempotency o.idempotencyKey tradeId choice.now).2 = claimed at same ⊢
    have used (bucket : QuoteBucket) (now : ℤ) : s.usage bucket now = claimed.usage bucket now := by
      unfold KernelStore.usage KernelStore.sumActive
      rw [same]
    unfold previewGuarded guarded
    simp only [outcome_bind,outcome_call,outcome_ofExcept,outcome_toPreview,previewHandle,handle]
    cases answered : choice.reply .policy with
    | error error => rfl
    | ok policy =>
      obtain ⟨mints,outcome⟩ : ∃ answer, ∀ s, (assertMintsSupported intent policy).outcome (handle choice) s = (answer,s) :=
        outcome_mints policy
      dsimp only
      rw [staticGuards_dryRun (enabled policy answered)]
      cases staticGuards policy intent ⟨false,o.confirmedByUser⟩ with
      | error error => rfl
      | ok _ =>
        cases assertSettleable d intent with
        | error error => rfl
        | ok _ =>
          dsimp only
          rw [outcome,outcome]
          cases mints with
          | error error => rfl
          | ok _ =>
            dsimp only
            cases quoteBucketFor intent.inputMint with
            | none => rfl
            | some bucket =>
              simp only [outcome_bind,outcome_call,outcome_ofExcept,previewHandle,handle]
              have agreed := admission_caps (s := claimed)
                ⟨bucket,intent.inputAmount,match bucket with | .sol => policy.capsSol | .usdc => policy.capsUsdc,tradeId,choice.now⟩
                (show claimed.spends.find? choice.id = none by rw [same]; exact fresh)
              rw [used bucket choice.now]
              refine agreed.trans ?_
              generalize claimed.reserve _ choice.id = result
              obtain ⟨answer,after⟩ := result
              cases answer with
              | error error => rfl
              | ok outcome => cases outcome <;> rfl
  · exact exec_reads (fun _ _ _ => previewHandle_reads) _ preview_reads choices s

open Sample in
theorem rehearsal_agrees :
    admission ((previewGuarded deployment intent ⟨"key",true⟩).outcome (previewHandle { reply, id := "id" }) .empty).1 =
      admission ((guarded deployment intent ⟨"key",true⟩ "trade" 0).outcome (handle { reply, id := "id" })
        (KernelStore.empty.claimIdempotency "key" "trade" 0).2).1 ∧
    ∀ choices, ((preview deployment intent ⟨"key",true⟩).exec previewHandle choices .empty).2 = .empty := by
  refine admission_agrees deployment intent ⟨"key",true⟩ "trade" { reply, id := "id" } .empty (fun p answered => ?_) rfl
  obtain rfl : policy = p := Except.ok.inj answered
  rfl

end RatifyOs.Kernel
