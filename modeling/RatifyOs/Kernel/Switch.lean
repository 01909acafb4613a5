import RatifyOs.Async.Exclusive
import RatifyOs.Kernel.Idempotency

/-! The operator's stop: `PolicyController`, and the calls that read its policy once. -/
namespace RatifyOs.Kernel
open Async Data
open Async.Program hiding pure throw

structure PolicyController where
  policy : PolicyConfig
  enforced : Bool
  canArm : Bool

inductive PolicyControlError where
  | notEnforced (action : String)
  | executionNotPermitted

def PolicyControlError.code : PolicyControlError → String
  | notEnforced _ => "POLICY_NOT_ENFORCED"
  | executionNotPermitted => "EXECUTION_NOT_PERMITTED"

def PolicyControlError.message : PolicyControlError → String
  | notEnforced action => s!"no money path is reading this policy, so it cannot {action}; the kernel gateway is not composed (no wallet is mounted)"
  | executionNotPermitted =>
    "this process was not booted with live execution enabled; arm it in the environment (EXECUTION_MODE) and restart"

namespace PolicyController

/-- Where `canArm` is not given, it is what the policy was booted with. -/
def boot (initial : PolicyConfig) (canArm : Option Bool) : PolicyController :=
  ⟨initial,false,canArm.getD initial.executionEnabled⟩

def markEnforced (c : PolicyController) : PolicyController := { c with enforced := true }

def requireEnforced (c : PolicyController) (action : String) : Except PolicyControlError Unit :=
  if c.enforced then .ok () else .error (.notEnforced action)

def setKillSwitch (c : PolicyController) (engaged : Bool) : Except PolicyControlError PolicyController := do
  if !engaged then c.requireEnforced "release the kill switch"
  return { c with policy := { c.policy with killSwitch := engaged } }

def setExecutionEnabled (c : PolicyController) (enabled : Bool) : Except PolicyControlError PolicyController := do
  if enabled then do
    c.requireEnforced "arm execution"
    if !c.canArm then throw .executionNotPermitted
  return { c with policy := { c.policy with executionEnabled := enabled } }

end PolicyController

/-- The policy lets a live trade through. -/
def PolicyConfig.armed (policy : PolicyConfig) : Bool := !policy.killSwitch && policy.executionEnabled

/-- What the operator and the composition do to the controller. -/
inductive Toggle where
  | killSwitch (engaged : Bool)
  | execution (enabled : Bool)
  | markEnforced

/-- A toggle that is refused leaves the controller as it is. -/
def PolicyController.toggled (c : PolicyController) : Toggle → PolicyController
  | .killSwitch engaged =>
    match c.setKillSwitch engaged with
    | .ok after => after
    | .error _ => c
  | .execution enabled =>
    match c.setExecutionEnabled enabled with
    | .ok after => after
    | .error _ => c
  | .markEnforced => c.markEnforced

structure Desk where
  store : KernelStore
  controller : PolicyController

/-- What the environment decides: the ports' part of an effect, or the operator's toggle. -/
structure Occasion where
  choice : Choice := {}
  toggle : Toggle := .markEnforced

/-- `policy: () => controller.get()`; a restart boots the controller anew. -/
def switched (d : Deployment) (boot : PolicyController) : System Op Op.Ans Failure Desk Call Occasion where
  program := Call.program d
  handle
    | _,.policy,s => (.ok s.controller.policy,s)
    | occasion,op,s => (handle occasion.choice op s.store).map id fun store => { s with store }
  ambient occasion s := { s with controller := s.controller.toggled occasion.toggle }
  restart s := { s with controller := boot }

abbrev Room := Config Op Op.Ans Failure Desk

namespace Switch
open Idempotency

def signs : Op → Prop
  | .sign _ => True
  | _ => False

def reads : Op → Prop
  | .policy => True
  | _ => False

/-- The call can still sign without reading the policy again. -/
def Cleared (t : Thread Op Op.Ans Failure) : Prop := ¬t.program.Quiet signs reads

/-- The history has read a policy that lets trades through. -/
def readArmed (h : Log) : Prop := ∃ policy, ⟨.policy,.ok policy⟩ ∈ h ∧ policy.armed = true

theorem armed_of_static {policy : PolicyConfig} {intent : TradeIntent} {confirmed : Bool}
    (passed : staticGuards policy intent ⟨false,confirmed⟩ = .ok ()) : policy.armed = true := by
  unfold staticGuards at passed
  unfold PolicyConfig.armed
  cases killed : policy.killSwitch with
  | true =>
    rw [killed] at passed
    cases passed
  | false =>
    cases enabled : policy.executionEnabled with
    | true => rfl
    | false =>
      rw [killed,enabled] at passed
      cases passed

theorem signs_armed {d : Deployment} {call : Call} {h : Log} {op : Op} (allowed : Call.permits d call h op)
    (signing : signs op) : readArmed h := by
  cases op with
  | sign tx =>
    cases call with
    | live intent o =>
      obtain ⟨policy,read,static,_⟩ := allowed.2.1.covered.guarded.cleared
      exact ⟨policy,read,armed_of_static static⟩
    | recover => cases allowed
  | _ => cases signing

/-- A program that has read no policy that lets trades through signs nothing before it
reads one. -/
theorem quiet_of_unarmed {d : Deployment} {call : Call} {p : Gateway Unit} {h : Log}
    (good : p.wp (Call.permits d call) (fun _ _ => True) (fun _ _ => True) h) (unarmed : ¬readArmed h) :
    p.Quiet signs reads := by
  apply p.quiet_of_wp readArmed _ _ h good unarmed
  · exact fun h op allowed signing => signs_armed allowed signing
  · rintro h op answer unread _ unarmed ⟨policy,inside,armed⟩
    rcases List.mem_cons.mp inside with same | old
    · cases same
      exact unread trivial
    · exact unarmed ⟨policy,old,armed⟩

/-- A stop falls while no call can still sign on a policy it has read. -/
def Timely (c : Room) (event : Event Call Occasion) : Prop :=
  ∀ occasion, event = .ambient occasion → (c.state.controller.toggled occasion.toggle).policy.armed = false →
    ∀ i t, c.threads i = some t → ¬Cleared t

/-- Nobody signs while the controller's policy is stopped. -/
def Heeded (c : Room) (event : Event Call Occasion) : Prop :=
  ∀ i occasion tx next h, event = .perform i occasion → c.threads i = some ⟨.perform (.sign tx) next,h⟩ →
    c.state.controller.policy.armed = true

/-- Who can still sign has a policy behind it that still stands. -/
def Standing (c : Room) : Prop := ∀ i t, c.threads i = some t → Cleared t → c.state.controller.policy.armed = true

section Step
variable {d : Deployment} {boot : PolicyController} {c : Room} {event : Event Call Occasion}

theorem controller_handle (occasion : Occasion) (op : Op) (s : Desk) :
    ((switched d boot).handle occasion op s).2.controller = s.controller := by
  cases op <;> rfl

theorem good_of_launched (launched : (switched d boot).Launched c) {i : ℕ} {t : Thread Op Op.Ans Failure}
    (found : c.threads i = some t) :
    ∃ call, t.program.wp (Call.permits d call) (fun _ _ => True) (fun _ _ => True) t.history := by
  obtain ⟨call,ran⟩ := launched i t found
  exact ⟨call,ran.wp (program_permitted d call)⟩

theorem standing_step (launched : (switched d boot).Launched c) (standing : Standing c) (timely : Timely c event) :
    Standing ((switched d boot).step c event) := by
  intro j t found cleared
  cases (switched d boot).thread_of_step found with
  | started call _ fresh =>
    subst fresh
    refine absurd (quiet_of_unarmed (program_permitted d call) ?_) cleared
    rintro ⟨_,inside,_⟩
    cases inside
  | kept there _ =>
    have before := standing j t there cleared
    cases event with
    | start call => exact before
    | ambient occasion =>
      by_contra stopped
      exact timely occasion rfl (Bool.eq_false_iff.mpr stopped) j t there cleared
    | crash => cases found
    | perform i occasion =>
      rcases (switched d boot).perform_cases c i occasion with ⟨op,next,history,here⟩ | idle
      · rw [(switched d boot).perform_eq here]
        change ((switched d boot).handle occasion op c.state).2.controller.policy.armed = true
        rw [controller_handle]
        exact before
      · rw [idle]
        exact before
  | resumed occasion op next history performed here after =>
    subst performed
    rw [(switched d boot).perform_eq here]
    change ((switched d boot).handle occasion op c.state).2.controller.policy.armed = true
    rw [controller_handle]
    by_cases reading : reads op
    · -- what was read is the policy that stands
      by_contra stopped
      obtain ⟨call,good⟩ := good_of_launched launched here
      cases op with
      | policy =>
        have rest := good.2 ((switched d boot).handle occasion .policy c.state).1
        subst after
        refine cleared (quiet_of_unarmed rest ?_)
        rintro ⟨policy,inside,armed⟩
        rcases List.mem_cons.mp inside with same | old
        · cases same
          exact stopped armed
        · cases call with
          | live intent o => cases good.1.2 _ old
          | recover => cases good.1
      | _ => cases reading
    · apply standing j _ here
      rintro ⟨_,stop | quiet⟩
      · exact reading stop
      · subst after
        exact cleared (quiet _)

theorem heeded_of_standing (standing : Standing c) : Heeded c event := by
  intro i occasion tx next h _ here
  apply standing i _ here
  rintro ⟨silent,_⟩
  exact silent trivial

end Step

/-- From any store and any policy, where every stop falls while no call can still sign on a
policy it has read, nothing is signed while the policy is stopped. -/
theorem stop_heeded (d : Deployment) (boot : PolicyController) (s : Desk) (events : List (Event Call Occasion))
    (timely : (switched d boot).Meets Timely (Config.initial s) events) :
    (switched d boot).Meets Heeded (Config.initial s) events := by
  have along : ∀ (events : List (Event Call Occasion)) (c : Room), (switched d boot).Launched c → Standing c →
      (switched d boot).Meets Timely c events → (switched d boot).Meets Heeded c events := by
    intro events
    induction events with
    | nil => exact fun _ _ _ _ => trivial
    | cons event events ih =>
      intro c launched standing timely
      refine ⟨heeded_of_standing standing,?_⟩
      apply ih _ ((switched d boot).launched_step launched event)
      · exact standing_step launched standing timely.1
      · exact timely.2
  apply along events _ ((switched d boot).launched_initial s) _ timely
  intro i t found
  cases found

/-! One swap, and the operator's switch. -/
section Example

def desk : Desk := ⟨.empty,⟨Sample.policy,true,true⟩⟩

def occasion : Occasion := { choice := { reply := Sample.reply, id := "id" } }

def kill (engaged : Bool) : Event Call Occasion := .ambient { toggle := .killSwitch engaged }

def simulated : List (Event Call Occasion) := .start (.live Sample.intent ⟨"key",true⟩) :: List.replicate 13 (.perform 0 occasion)

def isAmbient : Event Call Occasion → Bool
  | .ambient _ => true
  | _ => false

theorem timely_of_calm (c : Room) (event : Event Call Occasion) (calm : isAmbient event = false) : Timely c event := by
  rintro occasion rfl
  cases calm

/-- The switch is engaged and released, and a trade then runs as far as its signature. -/
theorem stop_heeded_released :
    (switched Sample.deployment desk.controller).Meets Heeded (Config.initial desk)
      (kill true :: kill false :: simulated ++ [.perform 0 occasion]) := by
  apply stop_heeded
  refine ⟨?_,?_,System.meets_mono _ timely_of_calm (by decide +kernel)⟩
  · intro _ _ _ i t found
    cases found
  · intro _ _ _ i t found
    cases found

/-- The call is about to sign. -/
def signing (c : Room) (i : ℕ) : Bool :=
  match c.threads i with
  | some ⟨.perform (.sign _) _,_⟩ => true
  | _ => false

theorem Heeded.armed {c : Room} {i : ℕ} {occasion : Occasion} (heeded : Heeded c (.perform i occasion)) (about : signing c i = true) :
    c.state.controller.policy.armed = true := by
  unfold signing at about
  split at about
  · rename_i tx next h here
    exact heeded i occasion tx next h rfl here
  · cases about

/-- A trade that has passed its guards is signed after the switch is engaged. -/
theorem stop_unheeded : ¬∀ (d : Deployment) (boot : PolicyController) (s : Desk) (events : List (Event Call Occasion)),
    (switched d boot).Meets Heeded (Config.initial s) events := by
  intro always
  have meets := always Sample.deployment desk.controller desk (simulated ++ [kill true] ++ [.perform 0 occasion])
  rw [System.meets_append] at meets
  have armed := meets.2.1.armed (by decide +kernel)
  revert armed
  decide +kernel

end Example

end Switch

end RatifyOs.Kernel
