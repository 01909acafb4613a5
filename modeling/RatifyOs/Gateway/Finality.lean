import Mathlib.Data.List.Forall2
import RatifyOs.Gateway.Api

/-! How the statuses of runs move. -/
namespace RatifyOs.Gateway.Api
open Data

def Config.limit (config : Config) : ℕ := config.maxConcurrentRuns.getD 10

/-- A task throws only while its run is running, and a cancellation is answered only while the
run is running or has been cancelled already. -/
def prompt (s : Server) : Event → Prop
  | .ends id (.error _) => s.tasks id = some .started → ∀ r ∈ s.store.runs.rows, r.id = id → r.status = .running
  | .answers tenantId call (.ok _) => ∀ c ∈ s.cancelling.rows, (c.tenantId,c.call) = (tenantId,call) →
      ∀ r ∈ s.store.runs.rows, r.id = c.run → r.status = .running ∨ r.status = .cancelled
  | _ => True

instance (s : Server) : (event : Event) → Decidable (prompt s event)
  | .ends id (.error _) => inferInstanceAs
      (Decidable (s.tasks id = some .started → ∀ r ∈ s.store.runs.rows, r.id = id → r.status = .running))
  | .answers tenantId call (.ok _) => inferInstanceAs
      (Decidable (∀ c ∈ s.cancelling.rows, (c.tenantId,c.call) = (tenantId,call) →
        ∀ r ∈ s.store.runs.rows, r.id = c.run → r.status = .running ∨ r.status = .cancelled))
  | .request _ _ => inferInstanceAs (Decidable True)
  | .starts _ => inferInstanceAs (Decidable True)
  | .emits _ _ _ => inferInstanceAs (Decidable True)
  | .ends _ (.ok _) => inferInstanceAs (Decidable True)
  | .answers _ _ (.error _) => inferInstanceAs (Decidable True)

/-- What may happen to a run: its status stays, or it was running and is over. -/
structure Evolves (r r' : Run) : Prop where
  id : r'.id = r.id
  tenantId : r'.tenantId = r.tenantId
  status : r'.status = r.status ∨ r.status = .running ∧ r'.status ≠ .running

theorem Evolves.refl (r : Run) : Evolves r r := ⟨rfl,rfl,.inl rfl⟩

theorem Evolves.trans {r r' r'' : Run} (first : Evolves r r') (second : Evolves r' r'') : Evolves r r'' := by
  refine ⟨second.id.trans first.id,second.tenantId.trans first.tenantId,?_⟩
  rcases first.status with same | ⟨running,over_⟩
  · rw [← same]
    exact second.status
  · refine .inr ⟨running,?_⟩
    rcases second.status with same | ⟨still,-⟩
    · rwa [same]
    · exact absurd still over_

def AllEvolve (store store' : MemoryRunStore) : Prop := List.Forall₂ Evolves store.runs.rows store'.runs.rows

theorem AllEvolve.refl (store : MemoryRunStore) : AllEvolve store store := List.forall₂_same.mpr fun r _ => .refl r

theorem AllEvolve.trans {store store' store'' : MemoryRunStore} (first : AllEvolve store store')
    (second : AllEvolve store' store'') : AllEvolve store store'' := by
  unfold AllEvolve at *
  generalize store.runs.rows = rows,store'.runs.rows = rows',store''.runs.rows = rows'' at *
  induction first generalizing rows'' with
  | nil => exact second
  | cons step _ ih =>
    cases second with
    | cons step' rest => exact .cons (step.trans step') (ih _ rest)

theorem evolve_update {store : MemoryRunStore} {id : String} {change : Run → Run}
    (each : ∀ r ∈ store.runs.rows, r.id = id → Evolves r { change r with id := r.id }) :
    AllEvolve store (store.update id change) := by
  unfold MemoryRunStore.update
  cases found : store.runs.find? id with
  | none => exact .refl store
  | some r =>
    obtain ⟨inside,same⟩ := Table.find?_eq_some_iff.mp found
    unfold AllEvolve Table.put
    dsimp only
    rw [List.forall₂_map_right_iff,List.forall₂_same]
    intro old there
    split_ifs with this_
    · rw [List.inj_on_of_nodup_map store.runs.distinct there inside this_]
      exact each r inside same
    · exact .refl old

theorem evolve_emit (config : Config) (s : Server) (id type : String) (data : Json) :
    AllEvolve s.store (s.emit config id type data).store :=
  evolve_update fun _ _ _ => ⟨rfl,rfl,.inl rfl⟩

theorem evolve_setStatus {s : Server} {id : String} {status : RunStatus} (over_ : status ≠ .running)
    (prompt : ∀ r ∈ s.store.runs.rows, r.id = id → r.status = .running ∨ r.status = status) :
    AllEvolve s.store (s.setStatus id status).store := by
  refine evolve_update fun r inside same => ⟨rfl,rfl,?_⟩
  rcases prompt r inside same with running | already
  · exact .inr ⟨running,over_⟩
  · exact .inl already.symm

theorem store_cancelRun (s : Server) (who : Principal) (call : ℕ) (id : String) : (s.cancelRun who call id).store = s.store := by
  unfold Server.cancelRun
  dsimp only
  split_ifs
  · rfl
  · cases s.store.get id who.tenantId with
    | none => rfl
    | some x =>
      dsimp only
      split_ifs
      · rfl
      · cases s.cancelling.insert? ⟨who.tenantId,call,x.id⟩ <;> rfl

theorem store_getRun (s : Server) (who : Principal) (id : String) : (s.getRun who id).store = s.store := by
  unfold Server.getRun
  split <;> rfl

theorem store_getEvents (s : Server) (who : Principal) (id : String) (last : Double) :
    (s.getEvents who id last).store = s.store := by
  unfold Server.getEvents
  split <;> rfl

/-- What is asked changes the runs only by a creation. -/
theorem handle_store (config : Config) (s : Server) (who : Principal) (request : Request) :
    (s.handle config who request).store = s.store ∨
    ∃ body key id now store, request = .postRun (some body) key id now ∧
      s.store.create ⟨id,who.tenantId,who.subject,body.sessionId,.running,now,[]⟩ key = some store ∧
      (s.handle config who request).store = store ∧ s.store.active who.tenantId < config.limit := by
  cases request with
  | getRun id => exact .inl (store_getRun s who id)
  | getEvents id last => exact .inl (store_getEvents s who id last)
  | cancelRun call id => exact .inl (store_cancelRun s who call id)
  | postRun body key id now =>
    cases body with
    | none => exact .inl rfl
    | some body =>
      simp only [Server.handle,Server.postRun]
      by_cases scope : "agent:write" ∉ who.scopes
      · rw [if_pos scope]
        exact .inl rfl
      rw [if_neg scope]
      cases (if key = "" then none else s.store.idempotent who.tenantId key) with
      | some old => exact .inl rfl
      | none =>
        simp only [Server.createRun]
        by_cases full : config.maxConcurrentRuns.getD 10 ≤ s.store.active who.tenantId
        · rw [if_pos full]
          exact .inl rfl
        rw [if_neg full]
        cases created : s.store.create ⟨id,who.tenantId,who.subject,body.sessionId,.running,now,[]⟩ key with
        | none => exact .inl rfl
        | some store => exact .inr ⟨body,key,id,now,store,rfl,created,rfl,not_le.mp full⟩

theorem create_rows {store store' : MemoryRunStore} {r : Run} {key : String} (created : store.create r key = some store') :
    store.runs.find? r.id = none ∧ store'.runs.rows = store.runs.rows ++ [r] := by
  obtain ⟨runs,inserted,rfl⟩ := Option.map_eq_some_iff.mp created
  exact Table.insert?_eq_some_iff.mp inserted

theorem evolve_endRun (config : Config) {s : Server} {id : String} (result : Except String Unit)
    (prompt : ∀ e, result = .error e → ∀ r ∈ s.store.runs.rows, r.id = id → r.status = .running) :
    AllEvolve s.store (s.endRun config id result).store := by
  unfold Server.endRun
  cases result with
  | ok _ =>
    dsimp only
    cases found : s.store.runs.find? id with
    | none => exact .refl _
    | some run =>
      dsimp only
      split_ifs with running
      · refine evolve_setStatus (by decide) fun r inside same => .inl ?_
        rwa [Option.some.inj ((Table.find?_eq_some_iff.mpr ⟨inside,same⟩).symm.trans found)]
      · exact .refl _
  | error message =>
    exact (evolve_setStatus (by decide) fun r inside same => .inl (prompt message rfl r inside same)).trans
      (evolve_emit config _ _ _ _)

theorem evolve_endCancel (config : Config) {s : Server} {c : Cancelling} (result : Except String Bool)
    (prompt : ∀ b, result = .ok b → ∀ r ∈ s.store.runs.rows, r.id = c.run → r.status = .running ∨ r.status = .cancelled) :
    AllEvolve s.store (s.endCancel config c result).store := by
  unfold Server.endCancel
  cases result with
  | error message => exact .refl _
  | ok answer =>
    have changed := (evolve_setStatus (s := { s with cancelling := s.cancelling.keep fun other =>
      (other.tenantId,other.call) ≠ (c.tenantId,c.call) }) (by decide) (prompt answer rfl)).trans
        (evolve_emit config _ c.run "cancelled" (.obj []))
    dsimp only
    split <;> exact changed

/-- A new run is created while there is room for it; everything else lets the runs evolve. -/
theorem step_evolves (config : Config) (s : Server) (event : Event) (meets : prompt s event) :
    AllEvolve s.store (s.step config event).store ∨
    ∃ r, (s.step config event).store.runs.rows = s.store.runs.rows ++ [r] ∧ s.store.active r.tenantId < config.limit := by
  cases event with
  | request who request =>
    rcases handle_store config s who request with same | ⟨body,key,id,now,store,-,created,same,room⟩
    · exact .inl (by rw [Server.step,same]; exact .refl _)
    · exact .inr ⟨_,by rw [Server.step,same]; exact (create_rows created).2,room⟩
  | starts id =>
    left
    simp only [Server.step]
    split_ifs <;> exact .refl _
  | emits id type data =>
    left
    simp only [Server.step]
    split_ifs
    · exact .refl _
    · exact evolve_emit config s id type data
  | ends id result =>
    left
    simp only [Server.step]
    by_cases started : s.tasks id = some .started
    · simp only [started,if_true]
      refine evolve_endRun config result ?_
      rintro e rfl
      exact meets started
    · simp only [started,if_false]
      exact .refl _
  | answers tenantId call result =>
    left
    simp only [Server.step]
    cases found : s.cancelling.find? (tenantId,call) with
    | none => exact .refl _
    | some c =>
      obtain ⟨inside,same⟩ := Table.find?_eq_some_iff.mp found
      dsimp only
      refine evolve_endCancel config result ?_
      rintro b rfl
      exact meets c inside same

/-- As many runs of a tenant are running as before, or fewer. -/
theorem active_evolves {store store' : MemoryRunStore} (evolve : AllEvolve store store') (tenant : String) :
    store'.active tenant ≤ store.active tenant := by
  unfold AllEvolve at evolve
  unfold MemoryRunStore.active
  generalize store.runs.rows = rows,store'.runs.rows = rows' at evolve ⊢
  induction evolve with
  | nil => rfl
  | @cons r r' rows rows' step _ ih =>
    simp only [List.filter_cons,step.tenantId]
    by_cases mine : r.tenantId = tenant
    · rcases step.status with same | ⟨running,over_⟩
      · by_cases still : r.status = .running <;> simpa [mine,same,still] using ih
      · simp only [mine,running,over_,and_self,and_false,decide_true,decide_false,if_true,Bool.false_eq_true,if_false,
          List.length_cons]
        omega
    · simpa [mine] using ih

theorem active_step {config : Config} {s : Server} {event : Event} (meets : prompt s event)
    (room : ∀ tenant, s.store.active tenant ≤ config.limit) (tenant : String) :
    (s.step config event).store.active tenant ≤ config.limit := by
  rcases step_evolves config s event meets with evolve | ⟨r,rows,below⟩
  · exact (active_evolves evolve tenant).trans (room tenant)
  · unfold MemoryRunStore.active at below ⊢
    rw [rows,List.filter_append,List.length_append]
    by_cases mine : r.tenantId = tenant
    · subst mine
      have one : ([r].filter fun x => x.tenantId = r.tenantId ∧ x.status = .running).length ≤ 1 := List.length_filter_le _ _
      omega
    · simpa [mine,MemoryRunStore.active] using room tenant

/-- A run that is over stays as it is. -/
def Final (config : Config) (s s' : Server) : Prop :=
  (∀ r ∈ s.store.runs.rows, r.status ≠ .running → ∃ r' ∈ s'.store.runs.rows, r'.id = r.id ∧ r'.status = r.status) ∧
    ∀ tenant, s'.store.active tenant ≤ config.limit

theorem AllEvolve.over {store store' : MemoryRunStore} (evolve : AllEvolve store store') {r : Run}
    (inside : r ∈ store.runs.rows) (over_ : r.status ≠ .running) :
    ∃ r' ∈ store'.runs.rows, r'.id = r.id ∧ r'.status = r.status := by
  unfold AllEvolve at evolve
  generalize store.runs.rows = rows,store'.runs.rows = rows' at evolve inside ⊢
  induction evolve with
  | nil => cases inside
  | cons step _ ih =>
    rcases List.mem_cons.mp inside with rfl | later
    · rcases step.status with same | ⟨running,-⟩
      · exact ⟨_,List.mem_cons_self,step.id,same⟩
      · exact absurd running over_
    · obtain ⟨r',inside',facts⟩ := ih later
      exact ⟨r',List.mem_cons_of_mem _ inside',facts⟩

theorem Final.step {config : Config} {s s' : Server} {event : Event} (meets : prompt s' event) (final : Final config s s') :
    Final config s (s'.step config event) := by
  refine ⟨fun r inside over_ => ?_,active_step meets final.2⟩
  obtain ⟨r',inside',id,status⟩ := final.1 r inside over_
  rcases step_evolves config s' event meets with evolve | ⟨new,rows,-⟩
  · obtain ⟨r'',inside'',id',status'⟩ := evolve.over inside' (status ▸ over_)
    exact ⟨r'',inside'',id'.trans id,status'.trans status⟩
  · exact ⟨r',rows ▸ List.mem_append_left _ inside',id,status⟩

/-- Where tasks and cancellations come to an end in time, a run that is over stays as it is, and
no tenant has more runs at a time than the limit. -/
theorem status_final (config : Config) (before after : List Event)
    (meets : Data.Run.Meets (Server.step config) (fun s event => prompt s event) .start (before ++ after)) :
    Final config (Data.Run.run (Server.step config) .start before) (Data.Run.run (Server.step config) .start (before ++ after)) := by
  obtain ⟨first,second⟩ := meets.of_append
  have room : ∀ tenant, (Data.Run.run (Server.step config) .start before).store.active tenant ≤ config.limit :=
    Data.Run.invariant (I := fun s => ∀ tenant, s.store.active tenant ≤ config.limit)
      (fun s event meets room => active_step meets room) (fun tenant => Nat.zero_le _) first
  have same : Final config (Data.Run.run (Server.step config) .start before) (Data.Run.run (Server.step config) .start before) :=
    ⟨fun r inside _ => ⟨r,inside,rfl,rfl⟩,room⟩
  rw [Data.Run.run_append]
  exact Data.Run.invariant (I := Final config _) (fun s event meets final => final.step meets) same second

namespace Sample

def config : Config := ⟨none,100,fun _ => false⟩

def alice : Principal := ⟨"alice","acme",["agent:write","agent:cancel"]⟩

/-- A run is created, and its task starts. -/
def begun (id : String) : List Event := [.request alice (.postRun (some ⟨"session","input"⟩) "" id 0),.starts id]

def cancels (id : String) : Event := .request alice (.cancelRun 1 id)

def served (events : List Event) : Server := Data.Run.run (Server.step config) .start events

def statuses (s : Server) : List RunStatus := s.store.runs.rows.map (·.status)

/-- A run is cancelled while it runs, and its task completes afterwards. -/
theorem status_final_cancelled : statuses (served (begun "r" ++ [cancels "r",.answers "acme" 1 (.ok true)])) = [.cancelled] ∧
    Final config (served (begun "r" ++ [cancels "r",.answers "acme" 1 (.ok true)]))
      (served (begun "r" ++ [cancels "r",.answers "acme" 1 (.ok true)] ++ [.ends "r" (.ok ())])) := by
  constructor
  · decide +kernel
  · apply status_final
    decide +kernel

/-- The task of a cancelled run throws, and a completed run is cancelled. -/
theorem status_changes :
    ¬Final config (served (begun "r" ++ [cancels "r",.answers "acme" 1 (.ok true)]))
      (served (begun "r" ++ [cancels "r",.answers "acme" 1 (.ok true)] ++ [.ends "r" (.error "aborted")])) ∧
    ¬Final config (served (begun "r" ++ [.ends "r" (.ok ())]))
      (served (begun "r" ++ [.ends "r" (.ok ())] ++ [cancels "r",.answers "acme" 1 (.ok true)])) := by
  refine ⟨fun final => ?_,fun final => ?_⟩
  · exact absurd final.1 (by decide +kernel)
  · exact absurd final.1 (by decide +kernel)

end Sample

end RatifyOs.Gateway.Api
