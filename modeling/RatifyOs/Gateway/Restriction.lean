import RatifyOs.Gateway.Finality

/-! The part of a server that one tenant sees, and what a step does to it. -/
namespace RatifyOs.Gateway.Api
open Data

/-! What there is of a server for one tenant. -/

def MemoryRunStore.holds (store : MemoryRunStore) (tenant id : String) : Bool := (store.get id tenant).isSome

def MemoryRunStore.restrict (store : MemoryRunStore) (tenant : String) : MemoryRunStore where
  runs := store.runs.keep fun r => r.tenantId = tenant
  keys := fun k => (store.keys k).filter (store.holds tenant)

def Server.restrict (s : Server) (tenant : String) : Server where
  store := s.store.restrict tenant
  tasks := fun id => if s.store.holds tenant id then s.tasks id else none
  cancelling := s.cancelling.keep fun c => c.tenantId = tenant
  sent := s.sent.filter fun m => m.tenantId = tenant

/-- Whether an event is a request of the tenant, or is about one of its runs. -/
def concerns (tenant : String) (s : Server) : Event → Bool
  | .request who _ => who.tenantId = tenant
  | .starts id => s.store.holds tenant id
  | .emits id _ _ => s.store.holds tenant id
  | .ends id _ => s.store.holds tenant id
  | .answers tenantId _ _ => tenantId = tenant

/-- The run without what does not concern the tenant. -/
def purge (config : Config) (tenant : String) : Server → List Event → List Event
  | _, [] => []
  | s, event :: events =>
    if concerns tenant s event then event :: purge config tenant (s.step config event) events
    else purge config tenant (s.step config event) events

/-- An id is new and not empty, and a key that is known is known as one of the tenant itself. -/
def unmixed (s : Server) : Event → Prop
  | .request who (.postRun _ key id _) => id ≠ "" ∧ s.store.runs.find? id = none ∧
      (key ≠ "" → ∀ r ∈ s.store.idempotent who.tenantId key, r.tenantId = who.tenantId)
  | _ => True

instance (s : Server) : (event : Event) → Decidable (unmixed s event)
  | .request who (.postRun _ key id _) => inferInstanceAs
      (Decidable (id ≠ "" ∧ s.store.runs.find? id = none ∧
        (key ≠ "" → ∀ r ∈ s.store.idempotent who.tenantId key, r.tenantId = who.tenantId)))
  | .request _ (.getRun _) => inferInstanceAs (Decidable True)
  | .request _ (.getEvents _ _) => inferInstanceAs (Decidable True)
  | .request _ (.cancelRun _ _) => inferInstanceAs (Decidable True)
  | .starts _ => inferInstanceAs (Decidable True)
  | .emits _ _ _ => inferInstanceAs (Decidable True)
  | .ends _ _ => inferInstanceAs (Decidable True)
  | .answers _ _ _ => inferInstanceAs (Decidable True)

/-- The keys know only runs that are there. -/
def MemoryRunStore.Known (store : MemoryRunStore) : Prop :=
  ∀ k id, store.keys k = some id → id ≠ "" ∧ ∃ r, store.runs.find? id = some r

/-- A response shows what its source says. -/
def Sent.Shows (m : Sent) : Prop :=
  match m.response,m.source with
  | .run _ body,some r => body = publicRun r
  | .events body,some r => ∀ e ∈ body, e ∈ r.events
  | .error _ _ _,none => True
  | _,_ => False

/-- A response shows a run of the tenant that it goes to, or none. -/
structure Belongs (store : MemoryRunStore) (m : Sent) : Prop where
  shows_ : m.Shows
  own : ∀ r ∈ m.source, r.tenantId = m.tenantId ∧ store.holds m.tenantId r.id

structure Owned (s : Server) : Prop where
  known : s.store.Known
  cancelling : ∀ c ∈ s.cancelling.rows, s.store.holds c.tenantId c.run
  sent : ∀ m ∈ s.sent, Belongs s.store m

section Restrict
variable {store : MemoryRunStore} {s : Server} {tenant other : String}

@[simp] theorem restrict_find? (id : String) : (store.restrict tenant).runs.find? id = store.get id tenant :=
  Table.find?_keep _ _ _

@[simp] theorem restrict_get (id : String) : (store.restrict tenant).get id tenant = store.get id tenant := by
  rw [MemoryRunStore.get,restrict_find?,MemoryRunStore.get,Option.filter_filter]
  simp

@[simp] theorem restrict_holds (id : String) : (store.restrict tenant).holds tenant id = store.holds tenant id := by
  rw [MemoryRunStore.holds,restrict_get,MemoryRunStore.holds]

theorem get_eq_some {id : String} {r : Run} : store.get id tenant = some r ↔ store.runs.find? id = some r ∧ r.tenantId = tenant := by
  simp [MemoryRunStore.get,Option.filter_eq_some_iff]

@[simp] theorem restrict_active : (store.restrict tenant).active tenant = store.active tenant := by
  unfold MemoryRunStore.active MemoryRunStore.restrict Table.keep
  rw [List.filter_filter]
  refine congrArg List.length (List.filter_congr fun r _ => ?_)
  by_cases mine : r.tenantId = tenant <;> simp [mine]

theorem update_find? {change : Run → Run} (id : String) : ∀ k, (store.update id change).runs.find? k =
    if k = id then (store.runs.find? id).map fun r => { change r with id := r.id } else store.runs.find? k := by
  intro k
  unfold MemoryRunStore.update
  cases found : store.runs.find? id with
  | none =>
    split_ifs with same
    · rw [same,found]
      rfl
    · rfl
  | some r =>
    have key := Table.key_of_find? found
    rw [Table.find?_put]
    by_cases same : k = id
    · subst same
      simp [key,found]
    · simp [key,same,Ne.symm same]

theorem update_get {change : Run → Run} (keeps : ∀ r, (change r).tenantId = r.tenantId) (id k : String) :
    (store.update id change).get k tenant =
      if k = id then (store.get id tenant).map fun r => { change r with id := r.id } else store.get k tenant := by
  unfold MemoryRunStore.get
  rw [update_find?]
  split_ifs
  · cases store.runs.find? id with
    | none => rfl
    | some r => by_cases mine : r.tenantId = tenant <;> simp [Option.filter,keeps,mine]
  · rfl

theorem update_holds {change : Run → Run} (keeps : ∀ r, (change r).tenantId = r.tenantId) (id k : String) :
    (store.update id change).holds tenant k = store.holds tenant k := by
  unfold MemoryRunStore.holds
  rw [update_get keeps]
  split_ifs with same
  · rw [same,Option.isSome_map]
  · rfl

/-- To change a run and to look at one tenant only are independent of each other. -/
theorem restrict_update {change : Run → Run} (keeps : ∀ r, (change r).tenantId = r.tenantId) (id : String) :
    (store.update id change).restrict tenant = (store.restrict tenant).update id change := by
  have keys (store : MemoryRunStore) : (store.update id change).keys = store.keys := by
    unfold MemoryRunStore.update
    split <;> rfl
  have runs : ((store.update id change).restrict tenant).runs = ((store.restrict tenant).update id change).runs := by
    unfold MemoryRunStore.update
    rw [restrict_find?]
    cases found : store.runs.find? id with
    | none => simp [MemoryRunStore.get,found,MemoryRunStore.restrict]
    | some r =>
      obtain ⟨inside,-⟩ := Table.find?_eq_some_iff.mp found
      have only {old} (there : old ∈ store.runs.rows) (same : old.id = r.id) : old = r :=
        List.inj_on_of_nodup_map store.runs.distinct there inside same
      refine Table.ext ?_
      by_cases mine : r.tenantId = tenant
      · rw [get_eq_some.mpr ⟨found,mine⟩]
        simp only [MemoryRunStore.restrict,Table.keep,Table.put,List.filter_map]
        refine congrArg _ (List.filter_congr fun old there => ?_)
        by_cases same : old.id = r.id
        · simp [only there same,keeps]
        · simp [same]
      · have absent : store.get id tenant = none := by simp [MemoryRunStore.get,found,mine]
        rw [absent]
        simp only [MemoryRunStore.restrict,Table.keep,Table.put,List.filter_map]
        rw [List.filter_congr (q := fun old => decide (old.tenantId = tenant))]
        · refine (List.map_congr_left fun old there => ?_).trans (List.map_id _)
          obtain ⟨there,mine'⟩ := List.mem_filter.mp there
          have apart : old.id ≠ r.id := fun same => mine (by simpa [only there same] using mine')
          simp [apart]
        · intro old there
          by_cases same : old.id = r.id
          · simp [only there same,keeps]
          · simp [same]
  have keys' : ((store.update id change).restrict tenant).keys = ((store.restrict tenant).update id change).keys := by
    rw [keys]
    unfold MemoryRunStore.restrict
    dsimp only
    rw [keys]
    funext k
    exact congrArg (Option.filter · (store.keys k)) (funext fun other => update_holds keeps id other)
  cases same : (store.update id change).restrict tenant
  cases same' : (store.restrict tenant).update id change
  rw [same,same'] at runs keys'
  cases runs
  cases keys'
  rfl

theorem update_absent {change : Run → Run} {id : String} (absent : store.holds tenant id = false) :
    (store.restrict tenant).update id change = store.restrict tenant := by
  have none_ : store.get id tenant = none := by simpa [MemoryRunStore.holds] using absent
  unfold MemoryRunStore.update
  rw [restrict_find?,none_]

/-! The parts of a step. -/

theorem restrict_send (response : Response) (source : Option Run) :
    (s.send tenant response source).restrict tenant = (s.restrict tenant).send tenant response source := by
  unfold Server.send Server.restrict
  simp only [List.filter_append,List.filter_cons,List.filter_nil,decide_true,if_true]

theorem restrict_send_other (apart : other ≠ tenant) (response : Response) (source : Option Run) :
    (s.send other response source).restrict tenant = s.restrict tenant := by
  unfold Server.send Server.restrict
  simp only [List.filter_append,List.filter_cons,List.filter_nil,apart,decide_false,Bool.false_eq_true,if_false,
    List.append_nil]

theorem restrict_change {change : Run → Run} (keeps : ∀ r, (change r).tenantId = r.tenantId) (id : String) :
    { s with store := s.store.update id change }.restrict tenant =
      { s.restrict tenant with store := (s.restrict tenant).store.update id change } := by
  unfold Server.restrict
  dsimp only
  rw [restrict_update keeps]
  simp only [update_holds keeps]

theorem restrict_emit (config : Config) (id type : String) (data : Json) :
    (s.emit config id type data).restrict tenant = (s.restrict tenant).emit config id type data := by
  unfold Server.emit MemoryRunStore.emit
  apply restrict_change
  exact fun _ => rfl

theorem restrict_setStatus (id : String) (status : RunStatus) :
    (s.setStatus id status).restrict tenant = (s.restrict tenant).setStatus id status := by
  unfold Server.setStatus
  apply restrict_change
  exact fun _ => rfl

theorem holds_emit (config : Config) (id type : String) (data : Json) (k : String) :
    (s.emit config id type data).store.holds tenant k = s.store.holds tenant k := by
  unfold Server.emit MemoryRunStore.emit
  apply update_holds
  exact fun _ => rfl

theorem holds_setStatus (id : String) (status : RunStatus) (k : String) :
    (s.setStatus id status).store.holds tenant k = s.store.holds tenant k := by
  unfold Server.setStatus
  apply update_holds
  exact fun _ => rfl

theorem emit_absent (config : Config) {id : String} (absent : s.store.holds tenant id = false) (type : String) (data : Json) :
    (s.restrict tenant).emit config id type data = s.restrict tenant := by
  unfold Server.emit MemoryRunStore.emit Server.restrict
  dsimp only
  rw [update_absent absent]

theorem setStatus_absent {id : String} (absent : s.store.holds tenant id = false) (status : RunStatus) :
    (s.restrict tenant).setStatus id status = s.restrict tenant := by
  unfold Server.setStatus Server.restrict
  dsimp only
  rw [update_absent absent]

/-- To mark a task is seen by the tenant of the run only. -/
theorem restrict_task (s : Server) (tenant id : String) (task : Task) : ({ s with tasks := fun other => if other = id then some task else s.tasks other }).restrict tenant =
    if s.store.holds tenant id then
      { s.restrict tenant with tasks := fun other => if other = id then some task else (s.restrict tenant).tasks other }
    else s.restrict tenant := by
  cases held : s.store.holds tenant id
  · simp only [Server.restrict,Bool.false_eq_true,if_false,Server.mk.injEq,true_and,and_true]
    funext other
    by_cases same : other = id
    · simp [same,held]
    · simp [same]
  · simp only [Server.restrict,if_true,Server.mk.injEq,true_and,and_true]
    funext other
    by_cases same : other = id
    · simp [same,held]
    · simp [same]

theorem restrict_endRun (tenant : String) (config : Config) (id : String) (result : Except String Unit) :
    (s.endRun config id result).restrict tenant =
      if s.store.holds tenant id then (s.restrict tenant).endRun config id result else s.restrict tenant := by
  have marked := restrict_task s tenant id .ended
  unfold Server.endRun
  cases held : s.store.holds tenant id
  · simp only [held,Bool.false_eq_true,if_false] at marked ⊢
    cases result with
    | error message =>
      dsimp only
      rw [restrict_emit,restrict_setStatus,marked,setStatus_absent held,emit_absent config held]
    | ok _ =>
      dsimp only
      split
      · split_ifs
        · rw [restrict_setStatus,marked,setStatus_absent held]
        · exact marked
      · exact marked
  · simp only [held,if_true] at marked ⊢
    cases result with
    | error message =>
      dsimp only
      rw [restrict_emit,restrict_setStatus,marked]
    | ok _ =>
      obtain ⟨run,found⟩ := Option.isSome_iff_exists.mp held
      have same : (s.restrict tenant).store.runs.find? id = some run := (restrict_find? id).trans found
      obtain ⟨here,-⟩ := get_eq_some.mp found
      simp only [here,same]
      split_ifs
      · rw [restrict_setStatus,marked]
      · exact marked

/-- To forget a cancellation. -/
def Server.forget (s : Server) (c : Cancelling) : Server :=
  { s with cancelling := s.cancelling.keep fun other => (other.tenantId,other.call) ≠ (c.tenantId,c.call) }

theorem restrict_forget (s : Server) (tenant : String) (c : Cancelling) : (s.forget c).restrict tenant =
    if c.tenantId = tenant then (s.restrict tenant).forget c else s.restrict tenant := by
  unfold Server.forget Server.restrict
  split_ifs with mine
  · simp only [Server.mk.injEq,true_and,and_true]
    refine Table.ext ?_
    simp only [Table.keep,List.filter_filter]
    exact List.filter_congr fun other _ => Bool.and_comm _ _
  · simp only [Server.mk.injEq,true_and,and_true]
    refine Table.ext ?_
    simp only [Table.keep,List.filter_filter]
    refine List.filter_congr fun other _ => ?_
    by_cases own : other.tenantId = tenant
    · have apart : tenant ≠ c.tenantId := Ne.symm mine
      simp [own,apart]
    · simp [own]

/-- A cancellation that the runtime has answered, up to the response. -/
def Server.cancelled (config : Config) (s : Server) (c : Cancelling) : Server :=
  ((s.forget c).setStatus c.run .cancelled).emit config c.run "cancelled" (.obj [])

theorem endCancel_ok (config : Config) (c : Cancelling) (answer : Bool) : s.endCancel config c (.ok answer) =
    match (s.cancelled config c).store.runs.find? c.run with
    | some x => (s.cancelled config c).send c.tenantId (.run 200 (publicRun x)) (some x)
    | none => s.cancelled config c := rfl

theorem endCancel_error (config : Config) (c : Cancelling) (message : String) : s.endCancel config c (.error message) =
    (s.forget c).send c.tenantId (.error 500 "INTERNAL_ERROR" "Unexpected server error") := rfl

theorem restrict_cancelled (tenant : String) (config : Config) {c : Cancelling} (owned : s.store.holds c.tenantId c.run) :
    (s.cancelled config c).restrict tenant =
      if c.tenantId = tenant then (s.restrict tenant).cancelled config c else s.restrict tenant := by
  unfold Server.cancelled
  rw [restrict_emit,restrict_setStatus,restrict_forget]
  split_ifs with mine
  · rfl
  · obtain ⟨r,found⟩ := Option.isSome_iff_exists.mp owned
    obtain ⟨here,own⟩ := get_eq_some.mp found
    have absent : s.store.holds tenant c.run = false := by
      have apart : r.tenantId ≠ tenant := own ▸ mine
      simp [MemoryRunStore.holds,MemoryRunStore.get,here,apart]
    rw [setStatus_absent absent,emit_absent config absent]

theorem restrict_endCancel (config : Config) {c : Cancelling} (result : Except String Bool)
    (owned : s.store.holds c.tenantId c.run) :
    (s.endCancel config c result).restrict tenant =
      if c.tenantId = tenant then (s.restrict tenant).endCancel config c result else s.restrict tenant := by
  have cancelled := restrict_cancelled tenant config owned
  have forgotten := restrict_forget s tenant c
  by_cases mine : c.tenantId = tenant
  · subst mine
    rw [if_pos rfl] at cancelled forgotten ⊢
    cases result with
    | error message => rw [endCancel_error,restrict_send,forgotten,endCancel_error]
    | ok answer =>
      have held : (s.cancelled config c).store.holds c.tenantId c.run = true := by
        rw [Server.cancelled,holds_emit,holds_setStatus]
        exact owned
      obtain ⟨x,found⟩ := Option.isSome_iff_exists.mp held
      have there : ((s.restrict c.tenantId).cancelled config c).store.runs.find? c.run = some x := by
        rw [← cancelled]
        exact (restrict_find? c.run).trans found
      simp only [endCancel_ok,(get_eq_some.mp found).1,there]
      rw [restrict_send,cancelled]
  · rw [if_neg mine] at cancelled forgotten ⊢
    cases result with
    | error message => rw [endCancel_error,restrict_send_other mine,forgotten]
    | ok answer =>
      rw [endCancel_ok]
      cases (s.cancelled config c).store.runs.find? c.run with
      | none => exact cancelled
      | some x => exact (restrict_send_other mine _ _).trans cancelled

/-! A creation. -/

theorem create_holds (tenant : String) {store' : MemoryRunStore} {r : Run} {key : String} (created : store.create r key = some store') (id : String) :
    store'.holds tenant id = if id = r.id then decide (r.tenantId = tenant) else store.holds tenant id := by
  obtain ⟨runs,inserted,rfl⟩ := Option.map_eq_some_iff.mp created
  unfold MemoryRunStore.holds MemoryRunStore.get
  dsimp only
  rw [Table.find?_insert? inserted]
  by_cases same : id = r.id
  · subst same
    by_cases mine : r.tenantId = tenant <;> simp [Option.filter,mine]
  · simp [same,Ne.symm same]

theorem restrict_create {store' : MemoryRunStore} {r : Run} {key : String} (known : store.Known) (mine : r.tenantId = tenant)
    (created : store.create r key = some store') : (store.restrict tenant).create r key = some (store'.restrict tenant) := by
  have holds := create_holds tenant created
  obtain ⟨fresh,rows⟩ := create_rows created
  have absent : (store.restrict tenant).runs.find? r.id = none := by
    rw [restrict_find?,MemoryRunStore.get,fresh]
    rfl
  have inserted : (store.restrict tenant).runs.insert? r = some (store'.restrict tenant).runs := by
    refine Table.insert?_eq_some_iff.mpr ⟨absent,?_⟩
    simp [MemoryRunStore.restrict,Table.keep,rows,mine]
  unfold MemoryRunStore.create
  rw [inserted]
  obtain ⟨runs,inserted',rfl⟩ := Option.map_eq_some_iff.mp created
  simp only [Option.map_some,Option.some.injEq]
  unfold MemoryRunStore.restrict
  simp only [MemoryRunStore.mk.injEq,true_and]
  funext k
  by_cases here : key ≠ "" ∧ k = joined r.tenantId key
  · rw [if_pos here,if_pos here,Option.filter_some_pos]
    rw [holds,if_pos rfl,decide_eq_true mine]
  · rw [if_neg here,if_neg here]
    cases found : store.keys k with
    | none => rfl
    | some id =>
      obtain ⟨-,other,there⟩ := known k id found
      have apart : id ≠ r.id := fun same => by simp [← same,there] at fresh
      simp only [Option.filter,holds,if_neg apart]

theorem restrict_create_other {store' : MemoryRunStore} {r : Run} {key : String} (known : store.Known)
    (mine : r.tenantId ≠ tenant) (unknown : key ≠ "" → store.keys (joined r.tenantId key) = none)
    (created : store.create r key = some store') : store'.restrict tenant = store.restrict tenant := by
  have holds := create_holds tenant created
  obtain ⟨fresh,rows⟩ := create_rows created
  obtain ⟨runs,inserted',rfl⟩ := Option.map_eq_some_iff.mp created
  unfold MemoryRunStore.restrict
  simp only [MemoryRunStore.mk.injEq]
  refine ⟨Table.ext ?_,?_⟩
  · simpa [Table.keep,mine] using congrArg (List.filter fun r => decide (r.tenantId = tenant)) rows
  · funext k
    by_cases here : key ≠ "" ∧ k = joined r.tenantId key
    · rw [if_pos here,here.2,unknown here.1,Option.filter_some_neg]
      · rfl
      · rw [holds,if_pos rfl]
        simpa using mine
    · rw [if_neg here]
      cases found : store.keys k with
      | none => rfl
      | some id =>
        obtain ⟨-,other,there⟩ := known k id found
        have apart : id ≠ r.id := fun same => by simp [← same,there] at fresh
        simp only [Option.filter,holds,if_neg apart]

/-- A tenant's own key is known for it alone as it is among all. -/
theorem restrict_idempotent {key : String}
    (own : ∀ r ∈ store.idempotent tenant key, r.tenantId = tenant) (known : store.Known) :
    (store.restrict tenant).idempotent tenant key = store.idempotent tenant key := by
  unfold MemoryRunStore.idempotent at own ⊢
  cases found : store.keys (joined tenant key) with
  | none => simp [MemoryRunStore.restrict,found]
  | some id =>
    obtain ⟨named,r,there⟩ := known _ id found
    rw [found] at own
    simp only [named,if_false,there,Option.mem_some_iff,forall_eq'] at own
    have got : store.get id tenant = some r := get_eq_some.mpr ⟨there,own⟩
    have kept : (store.restrict tenant).keys (joined tenant key) = some id := by
      simp [MemoryRunStore.restrict,found,MemoryRunStore.holds,got]
    rw [kept]
    simp only [named,if_false,there,restrict_find?,got]

theorem create_of_fresh {r : Run} (key : String) (fresh : store.runs.find? r.id = none) :
    ∃ store', store.create r key = some store' := by
  cases created : store.create r key with
  | some store' => exact ⟨store',rfl⟩
  | none =>
    rw [MemoryRunStore.create,Option.map_eq_none_iff,Table.insert?] at created
    split at created
    · rename_i taken
      obtain ⟨old,inside,same⟩ := List.mem_map.mp taken
      exact absurd same (Table.find?_eq_none_iff.mp fresh old inside)
    · cases created

/-- A created run, and its task that waits. -/
def Server.withRun (s : Server) (store : MemoryRunStore) (id : String) : Server :=
  { s with store, tasks := fun other => if other = id then some .queued else s.tasks other }

theorem restrict_withRun {store' : MemoryRunStore} {r : Run} {key : String} (mine : r.tenantId = tenant)
    (created : s.store.create r key = some store') :
    (s.withRun store' r.id).restrict tenant = (s.restrict tenant).withRun (store'.restrict tenant) r.id := by
  have holds := create_holds tenant created
  unfold Server.withRun Server.restrict
  simp only [Server.mk.injEq,true_and,and_true]
  funext id
  by_cases same : id = r.id
  · simp [holds,same,mine]
  · simp [holds,same]

theorem restrict_withRun_other {store' : MemoryRunStore} {r : Run} {key : String} (known : s.store.Known)
    (mine : r.tenantId ≠ tenant) (unknown : key ≠ "" → s.store.keys (joined r.tenantId key) = none)
    (created : s.store.create r key = some store') : (s.withRun store' r.id).restrict tenant = s.restrict tenant := by
  have holds := create_holds tenant created
  have fresh : s.store.holds tenant r.id = false := by
    simp [MemoryRunStore.holds,MemoryRunStore.get,(create_rows created).1]
  unfold Server.withRun Server.restrict
  simp only [restrict_create_other known mine unknown created,Server.mk.injEq,true_and,and_true]
  funext id
  by_cases same : id = r.id
  · simp [holds,same,mine,fresh]
  · simp [holds,same]

theorem createRun_eq (config : Config) (who : Principal) (body : RunInput) (key id : String) (now : ℤ) :
    s.createRun config who body key id now =
      if config.maxConcurrentRuns.getD 10 ≤ s.store.active who.tenantId then
        s.err who 429 "QUOTA_EXCEEDED" "Concurrent run quota exceeded"
      else
        let run : Run := ⟨id,who.tenantId,who.subject,body.sessionId,.running,now,[]⟩
        match s.store.create run key with
        | some store => (s.withRun store id).sendRun who 202 run
        | none => s := rfl

theorem restrict_createRun (config : Config) {who : Principal} (body : RunInput) {key id : String} (now : ℤ)
    (known : s.store.Known) (fresh : s.store.runs.find? id = none) :
    (s.createRun config who body key id now).restrict who.tenantId =
      (s.restrict who.tenantId).createRun config who body key id now := by
  rw [createRun_eq,createRun_eq,show (s.restrict who.tenantId).store.active who.tenantId = s.store.active who.tenantId from
    restrict_active]
  split_ifs
  · exact restrict_send _ _
  dsimp only
  cases created : s.store.create ⟨id,who.tenantId,who.subject,body.sessionId,.running,now,[]⟩ key with
  | none =>
    obtain ⟨store',created'⟩ := create_of_fresh key
      (r := ⟨id,who.tenantId,who.subject,body.sessionId,.running,now,[]⟩) fresh
    rw [created'] at created
    cases created
  | some store' =>
    have created' : (s.restrict who.tenantId).store.create ⟨id,who.tenantId,who.subject,body.sessionId,.running,now,[]⟩ key =
      some (store'.restrict who.tenantId) := restrict_create known rfl created
    rw [created']
    dsimp only
    unfold Server.sendRun
    rw [restrict_send]
    exact congrArg (Server.send · _ _ _) (restrict_withRun rfl created)

theorem restrict_createRun_other (config : Config) {who : Principal} (apart : who.tenantId ≠ tenant) (body : RunInput)
    {key id : String} (now : ℤ) (known : s.store.Known)
    (unknown : key ≠ "" → s.store.keys (joined who.tenantId key) = none) :
    (s.createRun config who body key id now).restrict tenant = s.restrict tenant := by
  rw [createRun_eq]
  split_ifs
  · exact restrict_send_other apart _ _
  dsimp only
  cases created : s.store.create ⟨id,who.tenantId,who.subject,body.sessionId,.running,now,[]⟩ key with
  | none => rfl
  | some store' => exact (restrict_send_other apart _ _).trans (restrict_withRun_other known apart unknown created)

theorem restrict_cancelRun (who : Principal) (call : ℕ) (id : String) :
    (s.cancelRun who call id).restrict who.tenantId = (s.restrict who.tenantId).cancelRun who call id := by
  have same : (s.restrict who.tenantId).store.get id who.tenantId = s.store.get id who.tenantId := restrict_get id
  unfold Server.cancelRun
  dsimp only
  split_ifs
  · exact restrict_send _ _
  rw [same]
  cases s.store.get id who.tenantId with
  | none => exact restrict_send _ _
  | some x =>
    dsimp only
    split_ifs
    · exact restrict_send _ _
    have kept := Table.insert?_keep (t := s.cancelling) (p := fun c => c.tenantId = who.tenantId)
      (r := ⟨who.tenantId,call,x.id⟩) fun old same => by simpa using (Prod.mk.inj same).1
    rw [show (s.restrict who.tenantId).cancelling.insert? ⟨who.tenantId,call,x.id⟩ = _ from kept]
    cases s.cancelling.insert? ⟨who.tenantId,call,x.id⟩ <;> rfl

/-- What a tenant's requests do is done to what there is for it. -/
theorem restrict_handle (config : Config) {who : Principal} {request : Request} (known : s.store.Known)
    (meets : unmixed s (.request who request)) :
    (s.handle config who request).restrict who.tenantId = (s.restrict who.tenantId).handle config who request := by
  have get (id : String) : (s.restrict who.tenantId).store.get id who.tenantId = s.store.get id who.tenantId := restrict_get id
  cases request with
  | getRun id =>
    simp only [Server.handle,Server.getRun,get]
    cases s.store.get id who.tenantId <;> exact restrict_send _ _
  | getEvents id last =>
    simp only [Server.handle,Server.getEvents,get]
    cases s.store.get id who.tenantId <;> exact restrict_send _ _
  | cancelRun call id => exact restrict_cancelRun who call id
  | postRun body key id now =>
    obtain ⟨-,fresh,own⟩ := meets
    have same : (if key = "" then none else (s.restrict who.tenantId).store.idempotent who.tenantId key) =
        if key = "" then none else s.store.idempotent who.tenantId key := by
      split_ifs with keyless
      · rfl
      · exact restrict_idempotent (own keyless) known
    cases body with
    | none => exact restrict_send _ _
    | some body =>
      simp only [Server.handle,Server.postRun,same]
      by_cases scope : "agent:write" ∉ who.scopes
      · rw [if_pos scope,if_pos scope]
        exact restrict_send _ _
      rw [if_neg scope,if_neg scope]
      cases (if key = "" then none else s.store.idempotent who.tenantId key) with
      | some old => exact restrict_send _ _
      | none => exact restrict_createRun config body now known fresh

/-- What the requests of another tenant do is not seen. -/
theorem restrict_handle_other (config : Config) {who : Principal} {request : Request} (apart : who.tenantId ≠ tenant)
    (known : s.store.Known) (meets : unmixed s (.request who request)) :
    (s.handle config who request).restrict tenant = s.restrict tenant := by
  cases request with
  | getRun id =>
    simp only [Server.handle,Server.getRun]
    cases s.store.get id who.tenantId <;> exact restrict_send_other apart _ _
  | getEvents id last =>
    simp only [Server.handle,Server.getEvents]
    cases s.store.get id who.tenantId <;> exact restrict_send_other apart _ _
  | cancelRun call id =>
    simp only [Server.handle,Server.cancelRun]
    split_ifs
    · exact restrict_send_other apart _ _
    cases s.store.get id who.tenantId with
    | none => exact restrict_send_other apart _ _
    | some x =>
      dsimp only
      split_ifs
      · exact restrict_send_other apart _ _
      cases inserted : s.cancelling.insert? ⟨who.tenantId,call,x.id⟩ with
      | none => rfl
      | some cancelling =>
        obtain ⟨-,rows⟩ := Table.insert?_eq_some_iff.mp inserted
        simp only [Server.restrict,Server.mk.injEq,true_and,and_true]
        exact Table.ext (by simp [Table.keep,rows,apart])
  | postRun body key id now =>
    obtain ⟨-,fresh,own⟩ := meets
    cases body with
    | none => exact restrict_send_other apart _ _
    | some body =>
      simp only [Server.handle,Server.postRun]
      by_cases scope : "agent:write" ∉ who.scopes
      · rw [if_pos scope]
        exact restrict_send_other apart _ _
      rw [if_neg scope]
      cases answered : (if key = "" then none else s.store.idempotent who.tenantId key) with
      | some old => exact restrict_send_other apart _ _
      | none =>
        refine restrict_createRun_other config apart body now known fun keyed => ?_
        rw [if_neg keyed,MemoryRunStore.idempotent] at answered
        cases found : s.store.keys (joined who.tenantId key) with
        | none => rfl
        | some other =>
          obtain ⟨named,r,there⟩ := known _ other found
          simp [found,named,there] at answered

/-- A step does for a tenant what concerns it, and nothing else. -/
theorem restrict_step (tenant : String) (config : Config) {event : Event} (owned : Owned s) (meets : unmixed s event) :
    (s.step config event).restrict tenant =
      if concerns tenant s event then (s.restrict tenant).step config event else s.restrict tenant := by
  have tasks (id : String) (held : s.store.holds tenant id = true) : (s.restrict tenant).tasks id = s.tasks id := by
    simp [Server.restrict,held]
  cases event with
  | request who request =>
    simp only [concerns,decide_eq_true_eq,Server.step]
    split_ifs with mine
    · subst mine
      exact restrict_handle config owned.known meets
    · exact restrict_handle_other config mine owned.known meets
  | starts id =>
    have marked := restrict_task s tenant id .started
    simp only [Server.step]
    rw [show concerns tenant s (.starts id) = s.store.holds tenant id from rfl]
    by_cases held : s.store.holds tenant id
    · rw [if_pos held] at marked ⊢
      rw [tasks id held]
      split_ifs
      · exact marked
      · rfl
    · rw [if_neg held] at marked ⊢
      split_ifs
      · exact marked
      · rfl
  | emits id type data =>
    simp only [Server.step]
    rw [show concerns tenant s (.emits id type data) = s.store.holds tenant id from rfl]
    by_cases held : s.store.holds tenant id
    · rw [if_pos held,tasks id held]
      split_ifs
      · rfl
      · exact restrict_emit config id type data
    · rw [if_neg held]
      split_ifs
      · rfl
      · rw [restrict_emit,emit_absent config (by simpa using held)]
  | ends id result =>
    have ended := restrict_endRun (s := s) tenant config id result
    simp only [Server.step]
    rw [show concerns tenant s (.ends id result) = s.store.holds tenant id from rfl]
    by_cases held : s.store.holds tenant id
    · rw [if_pos held] at ended ⊢
      rw [tasks id held]
      split_ifs
      · exact ended
      · rfl
    · rw [if_neg held] at ended ⊢
      split_ifs
      · exact ended
      · rfl
  | answers tenantId call result =>
    simp only [concerns,Server.step,decide_eq_true_eq]
    have found_restrict : (s.restrict tenant).cancelling.find? (tenantId,call) =
        (s.cancelling.find? (tenantId,call)).filter fun c => c.tenantId = tenant := Table.find?_keep _ _ _
    cases found : s.cancelling.find? (tenantId,call) with
    | none =>
      rw [found_restrict,found]
      simp
    | some c =>
      obtain ⟨inside,same⟩ := Table.find?_eq_some_iff.mp found
      obtain ⟨rfl,rfl⟩ := Prod.mk.inj same
      rw [found_restrict,found]
      dsimp only
      rw [restrict_endCancel config result (owned.cancelling c inside)]
      split_ifs with mine
      · simp [Option.filter,mine]
      · rfl

end Restrict

end RatifyOs.Gateway.Api
