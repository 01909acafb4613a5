import RatifyOs.Data.Run
import RatifyOs.Tools.Invocation

/-! What a failed tool call says of the transaction that its tool has built. -/
namespace RatifyOs.Tools
open Async Kernel
open Async.Program hiding pure throw

/-- A call that failed has sent nothing, and no tool was started for a caller that had aborted. -/
def Clean (v : Invocation) : Prop := (v.stage.failure → v.sent = false) ∧ v.signalAtStart.isNone

instance (v : Invocation) : Decidable (Clean v) := inferInstanceAs (Decidable (_ ∧ _))

/-- The caller has not aborted when the tool is started, an abort comes before anything is sent
and nothing is sent after it, and what was sent is not lost sight of. -/
def heeded (v : Invocation) : Event → Bool
  | .go _ =>
    match v.stage with
    | .starting => v.signal.isNone
    | _ => true
  | .callerAborts _ => v.signal.isSome || !v.stage.armed || !v.sent
  | .timesOut => !v.stage.armed || !v.sent
  | .effect choice reached =>
    match v.tool with
    | some (.gateway (.perform op _) _ _) =>
      let entry : Record := ⟨op,(handle choice op v.store).1⟩
      (!sends reached entry || !v.stage.failure) && (!unsettles entry || !(v.sent || sends reached entry))
    | _ => true
  | _ => true

section Tool

def trades : Entry Step Step.Ans String → Bool
  | ⟨.execute _ _,.ok r⟩ => !r.failed
  | _ => false

def Single (h : History Step Step.Ans String) : Step → Prop
  | .execute _ _ => h.any trades = false
  | _ => True

theorem bridge_traded (idempotencyKey : String) :
    (bridge idempotencyKey).wp Single (fun _ _ => True) (fun _ h => h.any trades = false) [] := by
  unfold bridge toolExecute
  simp only [wp_bind,wp_call]
  refine ⟨trivial,fun _ => ⟨trivial,fun confirmedByUser => ⟨trivial,fun intent => ⟨rfl,fun r => ?_,fun _ => rfl⟩,fun _ => rfl⟩,
    fun _ => rfl⟩,fun _ => rfl⟩
  unfold outcomeOf
  cases failed : r.failed with
  | true => simp [trades,failed]
  | false => simp

end Tool

section Invariant

/-- What is known of the tool, from what its calls have come to. -/
def Sound (sent : Bool) : Stand → Prop
  | .own p => ∃ h, p.wp Single (fun _ _ => True) (fun _ h => h.any trades = false) h ∧ (sent → h.any trades)
  | .gateway p next log => ∃ h, ∃ intent o, h.any trades = false ∧
      (∀ answer, (next answer).wp Single (fun _ _ => True) (fun _ h => h.any trades = false) (⟨.execute intent o,answer⟩ :: h)) ∧
      p.wp Once (fun r h => r.failed → Blamed h) (fun _ => Blamed) log ∧
      (sent → log.any broadcasts) ∧ (excused log → sent = false) ∧ log.any breaks = false

theorem unsent_of_untraded {sent : Bool} {h : History Step Step.Ans String} (traded : sent → h.any trades)
    (untraded : h.any trades = false) : sent = false := by
  cases sent with
  | false => rfl
  | true =>
    rw [traded rfl] at untraded
    cases untraded

def Stage.begun : Stage → Bool
  | .checking | .starting => false
  | _ => true

/-- What the checks, the race and the tool leave true at every await. -/
structure Steady (v : Invocation) : Prop where
  clean : Clean v
  begun : v.tool.isSome → v.stage.begun
  unsent : v.tool = none → v.sent = false
  sound : ∀ stand, v.tool = some stand → Sound v.sent stand

variable {d : Deployment} {v : Invocation}

theorem Steady.of_tool {stand : Stand} (here : v.tool = some stand) (clean : Clean v) (begun : v.stage.begun)
    (sound : Sound v.sent stand) : Steady v where
  clean := clean
  begun _ := begun
  unsent absent := by
    rw [here] at absent
    cases absent
  sound other there := by
    rw [here] at there
    cases there
    exact sound

theorem Steady.absent (steady : Steady v) (waiting : v.stage.begun = false) : v.tool = none := by
  cases there : v.tool with
  | none => rfl
  | some stand =>
    rw [steady.begun (by rw [there]; rfl)] at waiting
    cases waiting

theorem Steady.settle {p : Tool String} {h : History Step Step.Ans String} (clean : Clean v) (begun : v.stage.begun)
    (good : p.wp Single (fun _ _ => True) (fun _ h => h.any trades = false) h) (traded : v.sent → h.any trades) :
    Steady (v.settle d p) := by
  unfold Invocation.settle
  cases p with
  | pure data =>
    have sound : Sound v.sent (.own (.pure data)) := ⟨h,trivial,traded⟩
    cases stage : v.stage with
    | racing => exact .of_tool rfl ⟨nofun,clean.2⟩ rfl sound
    | _ =>
      rw [stage] at begun
      exact .of_tool rfl ⟨by simpa [stage] using clean.1,clean.2⟩ (by simpa [stage] using begun) sound
  | throw message =>
    have sound : Sound v.sent (.own (.throw message)) := ⟨h,good,traded⟩
    have unsent : v.sent = false := unsent_of_untraded traded good
    cases stage : v.stage with
    | racing => exact .of_tool rfl ⟨fun _ => unsent,clean.2⟩ rfl sound
    | _ =>
      rw [stage] at begun
      exact .of_tool rfl ⟨fun _ => unsent,clean.2⟩ (by simpa [stage] using begun) sound
  | perform step next =>
    cases step with
    | execute intent o =>
      have unsent : v.sent = false := unsent_of_untraded traded good.1
      have sound : Sound v.sent (.gateway (live d intent o) next []) :=
        ⟨h,intent,o,good.1,good.2,live_blamed_once,by simp [unsent],nofun,rfl⟩
      exact .of_tool rfl clean begun sound
    | _ =>
      have sound : Sound v.sent (.own (.perform _ next)) := ⟨h,good,traded⟩
      exact .of_tool rfl clean begun sound

theorem Steady.abort (steady : Steady v) (timeout : Bool) (unsent : v.sent = false) : Steady (v.abort timeout) := by
  unfold Invocation.abort
  cases stage : v.stage with
  | racing =>
    refine ⟨⟨fun _ => unsent,steady.clean.2⟩,fun _ => rfl,steady.unsent,steady.sound⟩
  | _ =>
    refine ⟨⟨fun _ => unsent,steady.clean.2⟩,fun there => ?_,steady.unsent,steady.sound⟩
    have begun := steady.begun there
    rw [stage] at begun
    simpa [stage] using begun

theorem Steady.start (steady : Steady v) (stage : v.stage = .starting) (idempotencyKey : String) (live : v.signal = none) :
    Steady (v.start d idempotencyKey) := by
  have unsent := steady.unsent (steady.absent (by rw [stage]; rfl))
  unfold Invocation.start
  simp only [live,Option.isSome_none,Bool.false_eq_true,if_false]
  refine Steady.settle ⟨fun _ => unsent,rfl⟩ ?_ (bridge_traded idempotencyKey) ?_
  · cases v.controller <;> rfl
  · simp [unsent]

theorem excused_handed {h : Log} (unsettled : excused h) : h.any broadcasts := by
  induction h with
  | nil => cases unsettled
  | cons entry h ih =>
    simp only [excused,Bool.or_eq_true,Bool.and_eq_true] at unsettled
    rcases unsettled with ⟨_,handed⟩ | before
    · exact handed
    · simp [ih before]

theorem sends_handed {reached : Bool} {entry : Record} (sending : sends reached entry) : broadcasts entry := by
  obtain ⟨op,answer⟩ := entry
  cases op with
  | broadcast landMode signed landHandle => rfl
  | _ => cases sending

theorem sent_cons {log : Log} {entry : Record} {sent reached : Bool} (once : Once log entry.1)
    (handed : sent → log.any broadcasts) (settled : excused log → sent = false)
    (seen : unsettles entry → (sent || sends reached entry) = false) :
    (sent || sends reached entry → (entry :: log).any broadcasts) ∧
      (excused (entry :: log) → (sent || sends reached entry) = false) := by
  constructor
  · intro now
    rw [Bool.or_eq_true] at now
    rw [List.any_cons,Bool.or_eq_true]
    rcases now with before | sending
    · exact .inr (handed before)
    · exact .inl (sends_handed sending)
  · intro unsettled
    simp only [excused,Bool.or_eq_true,Bool.and_eq_true] at unsettled
    rcases unsettled with ⟨unsettling,_⟩ | before
    · exact seen unsettling
    · have there := excused_handed before
      rw [settled before,Bool.false_or]
      cases sending : sends reached entry with
      | false => rfl
      | true =>
        obtain ⟨op,answer⟩ := entry
        have act : op.act = some .broadcast := by
          cases op with
          | broadcast landMode signed landHandle => rfl
          | _ => cases sending
        rw [once act] at there
        cases there

theorem unsent_of_blamed {sent : Bool} {log : Log} (handed : sent → log.any broadcasts)
    (settled : excused log → sent = false) (unbroken : log.any breaks = false) (blamed : Blamed log) : sent = false := by
  cases sent with
  | false => rfl
  | true =>
    rcases blamed (handed rfl) with unsettled | broken
    · exact settled unsettled
    · rw [unbroken] at broken
      cases broken

theorem Steady.effect (steady : Steady v) {op : Op} {next : Except Failure op.Ans → Gateway ExecuteResult}
    {rest : Except String ExecuteResult → Tool String} {log : Log} (here : v.tool = some (.gateway (.perform op next) rest log))
    (choice : Choice) (reached : Bool) (meets : heeded v (.effect choice reached)) :
    Steady (v.step d (.effect choice reached)) := by
  have begun := steady.begun (by simp [here])
  obtain ⟨h,intent,o,untraded,after,⟨once,good⟩,handed,settled,unbroken⟩ := steady.sound _ here
  simp only [heeded,here,Bool.and_eq_true,Bool.or_eq_true,Bool.not_eq_true'] at meets
  obtain ⟨open_,seen⟩ := meets
  generalize answered : (handle choice op v.store).1 = answer at open_ seen
  have unbroken : ((⟨op,answer⟩ :: log : Log).any breaks) = false := by
    rw [List.any_cons,unbroken,← answered,breaks_handle,Bool.or_false]
  have seen : unsettles ⟨op,answer⟩ → (v.sent || sends reached ⟨op,answer⟩) = false := by
    intro unsettling
    rw [unsettling] at seen
    simpa using seen
  obtain ⟨handed,settled⟩ := sent_cons (show Once log (⟨op,answer⟩ : Record).1 from once) handed settled seen
  have clean : v.stage.failure → (v.sent || sends reached ⟨op,answer⟩) = false := by
    intro failed
    rw [failed] at open_
    simpa [steady.clean.1 failed] using open_
  have good := good answer
  unfold Invocation.step
  simp only [here,answered]
  generalize (v.sent || sends reached ⟨op,answer⟩) = sent at *
  cases stand : next answer with
  | pure r =>
    rw [stand] at good
    refine Steady.settle ⟨clean,steady.clean.2⟩ begun (after (.ok r)) ?_
    intro sending
    cases failed : r.failed with
    | false => simp [trades,failed]
    | true =>
      have unsent := unsent_of_blamed handed settled unbroken (good failed)
      rw [show sent = true from sending] at unsent
      cases unsent
  | throw error =>
    rw [stand] at good
    refine Steady.settle ⟨clean,steady.clean.2⟩ begun (after (.error error.message)) ?_
    intro sending
    have unsent := unsent_of_blamed handed settled unbroken good
    rw [show sent = true from sending] at unsent
    cases unsent
  | perform op' next' =>
    rw [stand] at good
    exact .of_tool rfl ⟨clean,steady.clean.2⟩ begun ⟨h,intent,o,untraded,after,good,handed,settled,unbroken⟩

theorem Steady.step (steady : Steady v) (event : Event) (meets : heeded v event) : Steady (v.step d event) := by
  cases event with
  | checks request =>
    simp only [Invocation.step]
    cases stage : v.stage with
    | checking =>
      have absent := steady.absent (by rw [stage]; rfl)
      refine ⟨⟨fun _ => steady.unsent absent,steady.clean.2⟩,fun there => ?_,steady.unsent,steady.sound⟩
      rw [show v.tool = none from absent] at there
      cases there
    | _ => exact steady
  | callerAborts reason =>
    have aborting : Steady { v with signal := some reason } :=
      ⟨steady.clean,steady.begun,steady.unsent,steady.sound⟩
    simp only [Invocation.step]
    split
    · exact steady
    · split
      · rename_i live armed
        apply aborting.abort
        simpa [heeded,live,armed] using meets
      · exact aborting
  | timesOut =>
    simp only [Invocation.step]
    split
    · rename_i armed
      apply steady.abort
      simpa [heeded,armed] using meets
    · exact steady
  | go idempotencyKey =>
    unfold Invocation.step
    cases stage : v.stage with
    | starting =>
      apply steady.start stage
      simpa [heeded,stage] using meets
    | _ => exact steady
  | answer reply =>
    simp only [Invocation.step]
    split
    · rename_i step next here
      obtain ⟨h,good,traded⟩ := steady.sound _ here
      apply Steady.settle steady.clean (steady.begun (by simp [here])) (good.2 (reply step))
      intro sending
      rw [List.any_cons,traded sending,Bool.or_true]
    · exact steady
  | effect choice reached =>
    by_cases here : ∃ op next rest log, v.tool = some (.gateway (.perform op next) rest log)
    · obtain ⟨op,next,rest,log,here⟩ := here
      exact steady.effect here choice reached meets
    · simp only [Invocation.step]
      split
      · rename_i op next rest log here'
        exact absurd ⟨op,next,rest,log,here'⟩ here
      · exact steady
  | others store => exact ⟨steady.clean,steady.begun,steady.unsent,steady.sound⟩

end Invariant

namespace Sample

def granted : Request := ⟨"swap_jupiter",some ["order.write"],["order.write"],.ok ⟨true,none⟩,true⟩

def answers : (step : Step) → Except String step.Ans
  | .context => .ok ()
  | .confirmedByUser => .ok true
  | .build => .ok Kernel.Sample.intent
  | .execute _ _ => .error "unavailable"

/-- The call as far as the tool's call of the gateway. -/
def underWay : List Event := [.checks granted,.go "key",.answer answers,.answer answers,.answer answers]

def effects (reply : (op : Op) → Except Failure op.Ans) (n : ℕ) : List Event :=
  List.replicate n (.effect { reply, id := "id" } true)

def ran (aborted : Option String) (events : List Event) : Invocation :=
  Data.Run.run (Invocation.step Kernel.Sample.deployment) (called aborted .empty) (underWay ++ events)

def expired : (op : Op) → Except Failure op.Ans
  | .confirm _ _ => .ok .expired
  | op => Kernel.Sample.reply op

end Sample

end RatifyOs.Tools
