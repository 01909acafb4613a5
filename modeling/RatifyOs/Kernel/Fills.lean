import RatifyOs.Data.Result
import RatifyOs.Kernel.Gateway

/-! What a confirmed trade without a settle problem says about the fill. -/
namespace RatifyOs.Kernel
open Async Data Data.Result
open Async.Program hiding pure throw reject

/-- The balances that were read, newest first. -/
def balances (h : Log) : List Pair := h.filterMap fun
  | ⟨.readPair _ _ _,.ok pair⟩ => some pair
  | _ => none

/-- The venue positions that were read, newest first. -/
def venuePositions (h : Log) : List ℤ := h.filterMap fun
  | ⟨.readPosition _,.ok position⟩ => some position
  | _ => none

def Side.moved : Side → ℤ → ℤ
  | .long, delta => delta
  | .short, delta => -delta

/-- A fill of `d` base units under the policy: never less than the quote committed to, and close
to what it expected where it expected something. -/
structure Filled (policy : PolicyConfig) (quote : QuoteSummary) (d : ℤ) : Prop where
  committed : quote.minOutAmount ≤ d
  positive : 0 < quote.minOutAmount → 0 < d
  close : 0 < quote.outAmount ∨ 0 < quote.minOutAmount ∧ policy.maxSlippageBps ≤ 9949 →
    quote.outAmount * (10000 - policy.maxSlippageBps - 51) < d * 10000

theorem lt_of_slippageBps {expected actual bound : ℤ} (positive : 0 < expected) (within : slippageBps expected actual ≤ bound) :
    expected * (10000 - bound - 1) < actual * 10000 := by
  unfold slippageBps at within
  rw [if_neg (not_le.mpr positive)] at within
  have below : (expected - actual) * 10000 < expected * (bound + 1) := by
    have rest := Int.tmod_add_mul_tdiv ((expected - actual) * 10000) expected
    have least := Int.tmod_lt_of_pos ((expected - actual) * 10000) positive
    have scaled : expected * ((expected - actual) * 10000).tdiv expected ≤ expected * bound :=
      mul_le_mul_of_nonneg_left within positive.le
    calc (expected - actual) * 10000 = _ := rest.symm
      _ < expected + expected * bound := by omega
      _ = expected * (bound + 1) := by ring
  linarith

section
variable {d : Deployment} {intent : TradeIntent} {o : ExecuteOptions} {tradeId : String} {h h' : Log}

/-- Nothing was read in between. -/
structure Unread (h h' : Log) : Prop where
  balances : balances h' = balances h
  positions : venuePositions h' = venuePositions h
  grown : ∀ entry ∈ h, entry ∈ h'

theorem Unread.refl (h : Log) : Unread h h := ⟨rfl,rfl,fun _ inside => inside⟩

theorem Unread.trans {h'' : Log} (first : Unread h h') (second : Unread h' h'') : Unread h h'' where
  balances := second.balances.trans first.balances
  positions := second.positions.trans first.positions
  grown := fun entry inside => second.grown entry (first.grown entry inside)

/-- The guards let the intent through under a policy that the call has read. -/
def Admitted (intent : TradeIntent) (o : ExecuteOptions) (h : Log) : Prop :=
  ∃ policy, ⟨.policy,.ok policy⟩ ∈ h ∧ staticGuards policy intent ⟨false,o.confirmedByUser⟩ = .ok ()

theorem guarded_reads (now : ℤ) (h : Log) : (guarded d intent o tradeId now).wp (fun _ _ => True)
    (fun _ h' => Unread h h' ∧ Admitted intent o h') (fun _ _ => True) h := by
  unfold guarded assertMintsSupported
  simp only [wp_bind,wp_call,wp_ofExcept,wp_reject,true_and,implies_true,and_true]
  intro policy _ passed _ _ infos _
  have admitted {entries : Log} : Admitted intent o (entries ++ ⟨.policy,.ok policy⟩ :: h) := ⟨policy,by simp,passed⟩
  cases quoteBucketFor intent.inputMint with
  | none => exact ⟨⟨rfl,rfl,by simp +contextual⟩,@admitted [_]⟩
  | some bucket =>
    rw [wp_bind,wp_call]
    refine ⟨trivial,fun outcome => ?_,fun _ => trivial⟩
    cases outcome with
    | ok reservationId usedHour usedDay => exact ⟨⟨rfl,rfl,by simp +contextual⟩,@admitted [_,_]⟩
    | denied reason cap would => trivial

theorem register_reads (now : ℤ) (bucket : Option QuoteBucket) (reservationId : Option String) (h : Log) :
    (register d intent o tradeId now bucket reservationId).wp (fun _ _ => True)
      (fun read h' => balances h' = read.1 :: balances h ∧ venuePositions h' = read.2.toList ++ venuePositions h ∧
        read.2.isSome = (positionRef d intent).isSome ∧ ∀ entry ∈ h, entry ∈ h') (fun _ _ => True) h := by
  unfold register readPair readPosition
  cases located : positionRef d intent with
  | none =>
    simp only [wp_bind,wp_call,wp_reject,wp_pure,true_and,implies_true,and_true]
    intro pre _ _
    exact ⟨rfl,rfl,rfl,by simp +contextual⟩
  | some located =>
    simp only [wp_bind,wp_call,wp_reject,wp_pure,true_and,implies_true,and_true]
    intro pre position _ _
    exact ⟨rfl,rfl,rfl,by simp +contextual⟩

/-- A fill without a problem: the baseline and the reading behind it are at least as far apart
as the intent has committed to. -/
def Committed (d : Deployment) (intent : TradeIntent) (outputDelta : ℤ) (prePosition : Option ℤ) (h h' : Log) : Prop :=
  match positionRef d intent, prePosition with
  | some (perp,_), some prePosition => ∃ postPosition, venuePositions h' = postPosition :: venuePositions h ∧
      perp.minBaseAmount ≤ perp.side.moved (postPosition - prePosition)
  | _, _ => intent.quote.minOutAmount ≤ outputDelta

theorem Committed.unread {outputDelta : ℤ} {prePosition : Option ℤ} {g g' : Log} (committed : Committed d intent outputDelta prePosition h h')
    (before : venuePositions g = venuePositions h) (after : venuePositions g' = venuePositions h') :
    Committed d intent outputDelta prePosition g g' := by
  unfold Committed at committed ⊢
  rwa [before,after]

theorem settle_reads (outputDelta : ℤ) (prePosition : Option ℤ) (h : Log) :
    (settle d intent outputDelta prePosition).wp (fun _ _ => True) (fun settled h' => balances h' = balances h ∧
      (∀ entry ∈ h, entry ∈ h') ∧ (settled.problem = none → Committed d intent outputDelta prePosition h h'))
      (fun _ _ => True) h := by
  have token : (if outputDelta < intent.quote.minOutAmount then
      some (GuardCode.settleShortfall,"received less than committed min-out") else none) = none →
      intent.quote.minOutAmount ≤ outputDelta := by
    intro clean
    by_contra short
    rw [if_pos (not_le.mp short)] at clean
    cases clean
  unfold settle Committed
  cases positionRef d intent with
  | none => exact ⟨rfl,fun _ inside => inside,token⟩
  | some located =>
    obtain ⟨perp,ref⟩ := located
    cases prePosition with
    | none => exact ⟨rfl,fun _ inside => inside,token⟩
    | some prePosition =>
      simp only [wp_tryCatch,wp_bind,wp_call,wp_pure,true_and]
      refine ⟨fun postPosition => ⟨rfl,by simp +contextual,fun clean => ⟨postPosition,rfl,?_⟩⟩,fun e => ⟨rfl,by simp +contextual,fun clean => by cases clean⟩⟩
      unfold settledByPosition at clean
      cases side : perp.side <;> simpa [side,Side.moved] using clean

theorem consume_reads (reservationId : Option String) (h : Log) :
    (consume reservationId).wp (fun _ _ => True) (fun _ h' => Unread h h') (fun _ _ => True) h := by
  cases reservationId with
  | none => exact .refl h
  | some reservationId =>
    unfold consume
    rw [wp_call]
    exact ⟨trivial,fun _ => ⟨rfl,rfl,by simp +contextual⟩,fun _ => trivial⟩

theorem journal_reads (type : String) (details : List (String × Json)) (h : Log) :
    (journal type tradeId details).wp (fun _ _ => True) (fun _ h' => Unread h h') (fun _ _ => True) h := by
  unfold journal
  simp only [wp_bind,wp_call,true_and,implies_true,and_true]
  intro now _
  exact ⟨rfl,rfl,by simp +contextual⟩

/-- What a call that ends well has read since. -/
def ReadBack (d : Deployment) (intent : TradeIntent) (pre : Pair) (prePosition : Option ℤ) (h : Log) (r : ExecuteResult)
    (h' : Log) : Prop :=
  r.state = .confirmed → r.error = none → (∀ entry ∈ h, entry ∈ h') ∧ ∃ post, balances h' = post :: balances h ∧
    Committed d intent (post.output - pre.output) prePosition h h'

theorem conclude_reads (reservationId : Option String) (signature : String) (pre : Pair) (prePosition : Option ℤ) (h : Log) :
    (conclude d intent tradeId reservationId signature pre prePosition).wp (fun _ _ => True)
      (ReadBack d intent pre prePosition h) (fun _ _ => True) h := by
  unfold conclude readPair
  simp only [wp_bind,wp_call,true_and,implies_true,and_true]
  intro post
  refine wp_mono _ (settle_reads _ prePosition _) (fun settled h₁ read => ?_) fun _ _ _ => trivial
  rw [wp_bind]
  refine wp_mono _ (consume_reads reservationId h₁) (fun _ h₂ consumed => ?_) fun _ _ _ => trivial
  simp only [wp_bind,wp_call,true_and,implies_true,and_true]
  intro now _
  refine wp_mono _ (journal_reads _ _ _) (fun _ h₃ written => ?_) fun _ _ _ => trivial
  intro _ clean
  obtain ⟨read_,grown,settles⟩ := read
  have row : Unread h₂ (⟨.setState tradeId .confirmed now,.ok ()⟩ :: ⟨.now,.ok now⟩ :: h₂) := ⟨rfl,rfl,by simp +contextual⟩
  have rest : Unread h₁ h₃ := consumed.trans (row.trans written)
  have committed := settles (by simpa using clean)
  refine ⟨fun entry inside => rest.grown entry (grown entry (.tail _ inside)),post,rest.balances.trans read_,?_⟩
  exact committed.unread rfl rest.positions

theorem ReadBack.unread {pre : Pair} {prePosition : Option ℤ} {r : ExecuteResult} {g : Log}
    (back : ReadBack d intent pre prePosition g r h') (quiet : Unread h g) : ReadBack d intent pre prePosition h r h' := by
  intro confirmed clean
  obtain ⟨grown,post,read_,committed⟩ := back confirmed clean
  refine ⟨fun entry inside => grown entry (quiet.grown entry inside),post,read_.trans (by rw [quiet.balances]),?_⟩
  exact committed.unread quiet.positions.symm rfl

theorem giveUp_reads {pre : Pair} {prePosition : Option ℤ} {g : Log} (reservationId : Option String) (status : ConfirmStatus)
    (h : Log) : (giveUp tradeId reservationId status).wp (fun _ _ => True) (ReadBack d intent pre prePosition g)
      (fun _ _ => True) h := by
  unfold giveUp release journal
  cases reservationId <;>
    simp only [wp_bind,wp_call,wp_pure,implies_true,and_true,ReadBack,errorResult,reduceCtorEq,false_implies]

theorem land_reads (now : ℤ) (bucket : Option QuoteBucket) (reservationId : Option String) (pre : Pair) (prePosition : Option ℤ)
    (h : Log) : (land d intent o tradeId now bucket reservationId pre prePosition).wp (fun _ _ => True)
      (ReadBack d intent pre prePosition h) (fun _ _ => True) h := by
  unfold land
  rw [wp_bind,wp_call]
  refine ⟨trivial,fun _ => ?_,fun _ => trivial⟩
  rw [wp_bind]
  have noted (h' : Log) : (onlyIf reservationId.isSome (call (Op.appendJournal ⟨"trade.reserved",tradeId,now,
      [("bucket",Json.nullable (bucket.map QuoteBucket.text)),("amount",.str (toString intent.inputAmount))]⟩)) : Gateway Unit).wp
      (fun _ _ => True) (fun _ after => Unread h' after) (fun _ _ => True) h' := by
    rw [wp_onlyIf,wp_call]
    exact ⟨fun _ => ⟨trivial,fun _ => ⟨rfl,rfl,by simp +contextual⟩,fun _ => trivial⟩,fun _ => .refl h'⟩
  refine wp_mono _ (noted _) (fun _ h₁ quiet => ?_) fun _ _ _ => trivial
  unfold journal
  simp only [wp_bind,wp_call,wp_reject,wp_tryCatch,wp_throw,wp_ite,true_and,implies_true,and_true]
  intro sim _ _ _ signed _ _ _ _ _ signature _ _ _ _ _ _ status
  refine ⟨fun _ => giveUp_reads reservationId status _,fun _ => ?_⟩
  refine wp_mono _ (conclude_reads reservationId signature pre prePosition _) (fun r h₂ back => ?_) fun _ _ _ => trivial
  have begun : Unread h h₁ := ⟨quiet.balances,quiet.positions,fun entry inside => quiet.grown entry (.tail _ inside)⟩
  exact back.unread (begun.trans ⟨rfl,rfl,by simp +contextual⟩)

/-- What a call that is confirmed without a problem has read, from its first effect on. -/
def Clean (d : Deployment) (intent : TradeIntent) (o : ExecuteOptions) (r : ExecuteResult) (h : Log) : Prop :=
  r.state = .confirmed → r.error = none → Admitted intent o h ∧ ∃ pre post prePosition,
    balances h = [post,pre] ∧ prePosition.isSome = (positionRef d intent).isSome ∧
    ∃ g, venuePositions g = prePosition.toList ∧ Committed d intent (post.output - pre.output) prePosition g h

theorem abandon_reads (reservationId : Option String) (inserted : Bool) (err : Failure) (h : Log) :
    (abandon tradeId reservationId inserted err).wp (fun _ _ => True) (Clean d intent o) (fun _ _ => True) h := by
  unfold abandon release journal
  cases reservationId <;> cases inserted <;>
    simp [Clean,errorResult]

theorem live_reads : (live d intent o).wp (fun _ _ => True) (Clean d intent o) (fun _ _ => True) [] := by
  unfold live
  rw [wp_bind,wp_call]
  refine ⟨trivial,fun now => ?_,fun _ => trivial⟩
  rw [wp_bind,wp_call]
  refine ⟨trivial,fun tradeId => ?_,fun _ => trivial⟩
  rw [wp_bind,wp_call]
  refine ⟨trivial,fun claimed => ?_,fun _ => trivial⟩
  cases claimed with
  | false =>
    simp [Clean]
  | true =>
    rw [if_pos rfl,wp_attempt]
    refine wp_mono _ (guarded_reads now _) (fun held h₁ guarded_ => ?_) fun _ _ _ => abandon_reads _ _ _ _
    obtain ⟨bucket,reservationId⟩ := held
    rw [wp_attempt]
    refine wp_mono _ (register_reads now bucket reservationId h₁) (fun read h₂ registered => ?_) fun _ _ _ => abandon_reads _ _ _ _
    obtain ⟨pre,prePosition⟩ := read
    rw [wp_attempt]
    refine wp_mono _ (land_reads now bucket reservationId pre prePosition h₂) (fun r h₃ back => ?_) fun _ _ _ => abandon_reads _ _ _ _
    intro confirmed clean
    obtain ⟨grown,post,read_,committed⟩ := back confirmed clean
    obtain ⟨unread,policy,inside,passed⟩ := guarded_
    obtain ⟨first,position,located,grown'⟩ := registered
    refine ⟨⟨policy,grown _ (grown' _ inside),passed⟩,pre,post,prePosition,?_,located,h₂,?_,committed⟩
    · rw [read_,first,unread.balances]
      rfl
    · rw [position,unread.positions]
      exact List.append_nil _

theorem filled_of_static {policy : PolicyConfig} {opts : GuardOptions} (passed : staticGuards policy intent opts = .ok ())
    {delta : ℤ} (committed : intent.quote.minOutAmount ≤ delta) : Filled policy intent.quote delta where
  committed
  positive := fun least => least.trans_le committed
  close := by
    simp only [staticGuards,bind_eq_ok,refuse_eq_ok,not_lt] at passed
    obtain ⟨_,_,_,_,_,_,_,_,_,_,_,_,_,_,_,_,_,_,_,implied,_⟩ := passed
    have near (expects : 0 < intent.quote.outAmount) :
        intent.quote.outAmount * (10000 - policy.maxSlippageBps - 51) < delta * 10000 := by
      have least := lt_of_slippageBps expects implied
      have same : 10000 - (policy.maxSlippageBps + minOutToleranceBps) - 1 = 10000 - policy.maxSlippageBps - 51 := by
        unfold minOutToleranceBps
        omega
      rw [same] at least
      omega
    rintro (expects | ⟨least,clamp⟩)
    · exact near expects
    · by_cases expects : 0 < intent.quote.outAmount
      · exact near expects
      · have room : 0 ≤ 10000 - policy.maxSlippageBps - 51 := by omega
        have nothing : intent.quote.outAmount * (10000 - policy.maxSlippageBps - 51) ≤ 0 :=
          mul_nonpos_of_nonpos_of_nonneg (not_lt.mp expects) room
        omega

theorem perp_of_static {policy : PolicyConfig} {opts : GuardOptions} (passed : staticGuards policy intent opts = .ok ())
    (perps : intent.kind.isPerpIntentKind = true) : ∃ perp, intent.perp = some perp := by
  simp only [staticGuards,bind_eq_ok] at passed
  obtain ⟨_,_,_,_,_,_,_,_,_,perp,_⟩ := passed
  unfold perpGuard at perp
  rw [if_pos perps] at perp
  cases there : intent.perp with
  | none =>
    rw [there] at perp
    cases perp
  | some leg => exact ⟨leg,rfl⟩

end

/-- What the settle check promises: the balance of a trade grew by what the quote committed to,
and the position of a perp moved the way of the order by what its leg committed to. -/
theorem clean_fill (d : Deployment) (intent : TradeIntent) (o : ExecuteOptions) (h : Log) (r : ExecuteResult)
    (ran : Ran (live d intent o) h (.pure r)) (confirmed : r.state = .confirmed) (clean : r.error = none) :
    ∃ policy pre post, ⟨.policy,.ok policy⟩ ∈ h ∧ staticGuards policy intent ⟨false,o.confirmedByUser⟩ = .ok () ∧
      balances h = [post,pre] ∧
      (intent.kind.isPerpIntentKind = false → Filled policy intent.quote (post.output - pre.output)) ∧
      (intent.kind.isPerpIntentKind = true → ∃ perp before after, intent.perp = some perp ∧ venuePositions h = [after,before] ∧
        perp.minBaseAmount ≤ perp.side.moved (after - before)) := by
  have good : Clean d intent o r h := ran.wp live_reads
  obtain ⟨⟨policy,read_,passed⟩,pre,post,prePosition,balances_,located,g,baseline,committed⟩ := good confirmed clean
  refine ⟨policy,pre,post,read_,passed,balances_,fun other => filled_of_static passed ?_,fun perps => ?_⟩
  · have nowhere : positionRef d intent = none := by
      unfold positionRef settleModeFor
      rw [other]
      cases intent.perp <;> rfl
    unfold Committed at committed
    rwa [nowhere] at committed
  · obtain ⟨perp,leg⟩ := perp_of_static passed perps
    have there : positionRef d intent = some (perp,⟨perp.venue,perp.market,d.pubkey,perp.accountSubId⟩) := by
      unfold positionRef settleModeFor
      rw [leg,perps]
      rfl
    rw [there] at located
    obtain ⟨before,rfl⟩ := Option.isSome_iff_exists.mp located
    unfold Committed at committed
    rw [there] at committed
    obtain ⟨after,after_,moved⟩ := committed
    exact ⟨perp,before,after,leg,by rw [after_,baseline]; rfl,moved⟩

namespace Sample

/-- The ports agree, and the balances are read as `post` when few effects are left. -/
def fillReply (post : Pair) (left : ℕ) : (op : Op) → Except Failure op.Ans
  | .readPair _ _ _ => .ok (if left < 10 then post else ⟨4000000,0⟩)
  | op => reply op

def fillAnswer (post : Pair) (left : ℕ) (op : Op) : Except Failure op.Ans :=
  (handle { reply := fillReply post left, id := "id" } op .empty).1

def fill (intent : TradeIntent) (post : Pair) : Gateway ExecuteResult × Log :=
  (live deployment intent ⟨"key",true⟩).playing (fillAnswer post) 32 []

/-- A deposit into a pool: nothing is expected to arrive. -/
def deposit : TradeIntent := { intent with
  kind := .lpOpen
  source := "pools_open"
  outputProvenance := .untrusted
  quote := ⟨0,0,0⟩ }

def ended (answer : Gateway ExecuteResult) : Option (TradeState × Option (String × String)) :=
  answer.returned.map fun r => (r.state,r.error)

theorem ended_well {p : Gateway ExecuteResult} (well : ended p = some (.confirmed,none)) :
    ∃ r, p = .pure r ∧ r.state = .confirmed ∧ r.error = none := by
  cases p with
  | pure r =>
    obtain ⟨confirmed,clean⟩ := Prod.mk.inj (Option.some.inj well)
    exact ⟨r,rfl,confirmed,clean⟩
  | throw error => cases well
  | perform op next => cases well

theorem ran_fill (intent : TradeIntent) (post : Pair) : Ran (live deployment intent ⟨"key",true⟩) (fill intent post).2 (fill intent post).1 :=
  (Ran.start _).playing (fillAnswer post) 32

end Sample

open Sample in
/-- The deposit is confirmed without a problem, and the balance of the output mint has not moved. -/
theorem deposit_fills_nothing : ¬∀ (d : Deployment) (intent : TradeIntent) (o : ExecuteOptions) (h : Log) (r : ExecuteResult),
    Ran (live d intent o) h (.pure r) → r.state = .confirmed → r.error = none → intent.kind.isPerpIntentKind = false →
    ∀ pre post, balances h = [post,pre] → 0 < post.output - pre.output := by
  intro claim
  have run := ran_fill deposit ⟨3999000,0⟩
  obtain ⟨r,program,confirmed,clean⟩ := ended_well (p := (fill deposit ⟨3999000,0⟩).1) (by decide +kernel)
  rw [program] at run
  exact absurd (claim _ _ _ _ r run confirmed clean rfl ⟨4000000,0⟩ ⟨3999000,0⟩ rfl) (by decide)

open Sample in
theorem swap_filled : ∃ r, Ran (live deployment intent ⟨"key",true⟩) (fill intent ⟨3999000,1995⟩).2 (.pure r) ∧
    ∃ policy pre post, ⟨.policy,.ok policy⟩ ∈ (fill intent ⟨3999000,1995⟩).2 ∧
      staticGuards policy intent ⟨false,true⟩ = .ok () ∧ balances (fill intent ⟨3999000,1995⟩).2 = [post,pre] ∧
      (intent.kind.isPerpIntentKind = false → Filled policy intent.quote (post.output - pre.output)) ∧
      (intent.kind.isPerpIntentKind = true → ∃ perp before after, intent.perp = some perp ∧
        venuePositions (fill intent ⟨3999000,1995⟩).2 = [after,before] ∧ perp.minBaseAmount ≤ perp.side.moved (after - before)) := by
  have run := ran_fill intent ⟨3999000,1995⟩
  obtain ⟨r,program,confirmed,clean⟩ := ended_well (p := (fill intent ⟨3999000,1995⟩).1) (by decide +kernel)
  rw [program] at run
  exact ⟨r,run,clean_fill deployment intent ⟨"key",true⟩ _ r run confirmed clean⟩

end RatifyOs.Kernel
