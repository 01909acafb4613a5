import RatifyOs.Gateway.Restriction

/-! What a tenant sees of the others. -/
namespace RatifyOs.Gateway.Api
open Data

section Invariant
variable {s : Server}

theorem Belongs.mono {store store' : MemoryRunStore} {m : Sent} (belongs : Belongs store m)
    (keeps : ∀ tenant id, store.holds tenant id → store'.holds tenant id) : Belongs store' m :=
  ⟨belongs.shows_,fun r source => ⟨(belongs.own r source).1,keeps _ _ (belongs.own r source).2⟩⟩

theorem update_keys {store : MemoryRunStore} (id : String) (change : Run → Run) : (store.update id change).keys = store.keys := by
  unfold MemoryRunStore.update
  split <;> rfl

theorem Owned.change (owned : Owned s) {change : Run → Run} (keeps : ∀ r, (change r).tenantId = r.tenantId) (id : String) :
    Owned { s with store := s.store.update id change } := by
  refine ⟨?_,?_,?_⟩
  · intro k other found
    dsimp only at found ⊢
    rw [update_keys] at found
    obtain ⟨named,r,there⟩ := owned.known k other found
    rw [update_find?]
    by_cases same : other = id
    · subst same
      exact ⟨named,_,by rw [if_pos rfl,there]; rfl⟩
    · exact ⟨named,r,by rw [if_neg same,there]⟩
  · intro c inside
    dsimp only
    rw [update_holds keeps]
    exact owned.cancelling c inside
  · intro m inside
    refine (owned.sent m inside).mono fun tenant k held => ?_
    dsimp only
    rwa [update_holds keeps]

theorem Owned.emit (owned : Owned s) (config : Config) (id type : String) (data : Json) : Owned (s.emit config id type data) := by
  unfold Server.emit MemoryRunStore.emit
  apply owned.change
  exact fun _ => rfl

theorem Owned.setStatus (owned : Owned s) (id : String) (status : RunStatus) : Owned (s.setStatus id status) := by
  unfold Server.setStatus
  apply owned.change
  exact fun _ => rfl

theorem Owned.tasks (owned : Owned s) (tasks : String → Option Task) : Owned { s with tasks } :=
  ⟨owned.known,owned.cancelling,owned.sent⟩

theorem Owned.send (owned : Owned s) {tenantId : String} {response : Response} {source : Option Run}
    (belongs : Belongs s.store ⟨tenantId,response,source⟩) : Owned (s.send tenantId response source) := by
  refine ⟨owned.known,owned.cancelling,fun m inside => ?_⟩
  rcases List.mem_append.mp inside with old | last
  · exact owned.sent m old
  · rw [List.mem_singleton.mp last]
    exact belongs

theorem Owned.err (owned : Owned s) (tenantId : String) (code : ℕ) (name message : String) :
    Owned (s.send tenantId (.error code name message)) := owned.send ⟨trivial,by simp⟩

theorem Owned.sendOwn (owned : Owned s) {tenantId id : String} {r : Run} {response : Response}
    (found : s.store.get id tenantId = some r) (shows_ : Sent.Shows ⟨tenantId,response,some r⟩) :
    Owned (s.send tenantId response (some r)) := by
  obtain ⟨here,own⟩ := get_eq_some.mp found
  refine owned.send ⟨shows_,?_⟩
  intro r' source
  cases source
  refine ⟨own,?_⟩
  rw [MemoryRunStore.holds,show r.id = id from Table.key_of_find? here]
  exact Option.isSome_iff_exists.mpr ⟨r,found⟩

theorem Owned.endRun (owned : Owned s) (config : Config) (id : String) (result : Except String Unit) :
    Owned (s.endRun config id result) := by
  have marked := owned.tasks fun other => if other = id then some .ended else s.tasks other
  unfold Server.endRun
  cases result with
  | error message => exact (marked.setStatus id .failed).emit config _ _ _
  | ok _ =>
    dsimp only
    split
    · split_ifs
      · exact marked.setStatus id .completed
      · exact marked
    · exact marked

theorem Owned.endCancel (owned : Owned s) (config : Config) {c : Cancelling} (inside : c ∈ s.cancelling.rows)
    (result : Except String Bool) : Owned (s.endCancel config c result) := by
  have forgotten : Owned (s.forget c) :=
    ⟨owned.known,fun other there => owned.cancelling other (List.mem_of_mem_filter there),owned.sent⟩
  cases result with
  | error message => exact forgotten.err c.tenantId 500 "INTERNAL_ERROR" "Unexpected server error"
  | ok answer =>
    have cancelled : Owned (s.cancelled config c) := (forgotten.setStatus c.run .cancelled).emit config _ _ _
    have held : (s.cancelled config c).store.holds c.tenantId c.run = true := by
      rw [Server.cancelled,holds_emit,holds_setStatus]
      exact owned.cancelling c inside
    obtain ⟨x,found⟩ := Option.isSome_iff_exists.mp held
    rw [endCancel_ok,(get_eq_some.mp found).1]
    exact cancelled.sendOwn found rfl

theorem Owned.createRun (owned : Owned s) (config : Config) (who : Principal) (body : RunInput) {key id : String} (now : ℤ)
    (named : id ≠ "") : Owned (s.createRun config who body key id now) := by
  rw [createRun_eq]
  split_ifs
  · exact owned.err _ _ _ _
  dsimp only
  cases created : s.store.create ⟨id,who.tenantId,who.subject,body.sessionId,.running,now,[]⟩ key with
  | none => exact owned
  | some store' =>
    have holds (tenant : String) := create_holds tenant created
    obtain ⟨fresh,-⟩ := create_rows created
    have grows (tenant k : String) (held : s.store.holds tenant k) : store'.holds tenant k := by
      rw [holds]
      split_ifs with same
      · rw [same,MemoryRunStore.holds,MemoryRunStore.get,fresh] at held
        cases held
      · exact held
    obtain ⟨runs,inserted,rfl⟩ := Option.map_eq_some_iff.mp created
    have known : Owned (s.withRun ⟨runs,fun k => if key ≠ "" ∧ k = joined who.tenantId key then some id else s.store.keys k⟩ id) := by
      refine ⟨?_,fun c inside => grows _ _ (owned.cancelling c inside),fun m inside => (owned.sent m inside).mono grows⟩
      intro k other found
      dsimp only [Server.withRun] at found ⊢
      rw [Table.find?_insert? inserted]
      split_ifs at found
      · cases found
        exact ⟨named,_,if_pos rfl⟩
      · obtain ⟨named',r,there⟩ := owned.known k other found
        refine ⟨named',?_⟩
        split_ifs
        · exact ⟨_,rfl⟩
        · exact ⟨r,there⟩
    exact known.sendOwn (get_eq_some.mpr ⟨(Table.find?_insert? inserted id).trans (if_pos rfl),rfl⟩) rfl

theorem Owned.handle (owned : Owned s) (config : Config) {who : Principal} {request : Request}
    (meets : unmixed s (.request who request)) : Owned (s.handle config who request) := by
  cases request with
  | getRun id =>
    simp only [Server.handle,Server.getRun]
    cases found : s.store.get id who.tenantId with
    | none => exact owned.err _ _ _ _
    | some x => exact owned.sendOwn found rfl
  | getEvents id last =>
    simp only [Server.handle,Server.getEvents]
    cases found : s.store.get id who.tenantId with
    | none => exact owned.err _ _ _ _
    | some x => exact owned.sendOwn found fun e inside => List.mem_of_mem_filter inside
  | cancelRun call id =>
    simp only [Server.handle,Server.cancelRun]
    split_ifs
    · exact owned.err _ _ _ _
    cases found : s.store.get id who.tenantId with
    | none => exact owned.err _ _ _ _
    | some x =>
      dsimp only
      split_ifs
      · exact owned.err _ _ _ _
      cases inserted : s.cancelling.insert? ⟨who.tenantId,call,x.id⟩ with
      | none => exact owned
      | some cancelling =>
        obtain ⟨-,rows⟩ := Table.insert?_eq_some_iff.mp inserted
        refine ⟨owned.known,fun c inside => ?_,owned.sent⟩
        dsimp only at inside
        rw [rows,List.mem_append,List.mem_singleton] at inside
        rcases inside with old | rfl
        · exact owned.cancelling c old
        · have same : x.id = id := Table.key_of_find? (get_eq_some.mp found).1
          exact Option.isSome_iff_exists.mpr ⟨x,same ▸ found⟩
  | postRun body key id now =>
    obtain ⟨named,fresh,own⟩ := meets
    cases body with
    | none => exact owned.err _ _ _ _
    | some body =>
      simp only [Server.handle,Server.postRun]
      by_cases scope : "agent:write" ∉ who.scopes
      · rw [if_pos scope]
        exact owned.err _ _ _ _
      rw [if_neg scope]
      cases answered : (if key = "" then none else s.store.idempotent who.tenantId key) with
      | none => exact owned.createRun config who body now named
      | some old =>
        split_ifs at answered with keyless
        have mine := own keyless old answered
        rw [MemoryRunStore.idempotent] at answered
        cases found : s.store.keys (joined who.tenantId key) with
        | none => simp [found] at answered
        | some other =>
          obtain ⟨named',r,there⟩ := owned.known _ other found
          simp only [found,named',if_false,there,Option.some.injEq] at answered
          subst answered
          exact owned.sendOwn (get_eq_some.mpr ⟨there,mine⟩) rfl

theorem Owned.step (owned : Owned s) (config : Config) {event : Event} (meets : unmixed s event) :
    Owned (s.step config event) := by
  cases event with
  | request who request => exact owned.handle config meets
  | starts id =>
    simp only [Server.step]
    split_ifs
    · exact owned.tasks _
    · exact owned
  | emits id type data =>
    simp only [Server.step]
    split_ifs
    · exact owned
    · exact owned.emit config id type data
  | ends id result =>
    simp only [Server.step]
    split_ifs
    · exact owned.endRun config id result
    · exact owned
  | answers tenantId call result =>
    simp only [Server.step]
    cases found : s.cancelling.find? (tenantId,call) with
    | none => exact owned
    | some c => exact owned.endCancel config (Table.mem_of_find? found) result

end Invariant

/-- What a tenant has got back. -/
def receivedBy (tenant : String) (s : Server) : List Response := (s.sent.filter fun m => m.tenantId = tenant).map (·.response)

/-- A run, looked at by one tenant, is the run of what concerns it. -/
theorem restrict_run (config : Config) (tenant : String) {s : Server} {events : List Event} (owned : Owned s)
    (meets : Data.Run.Meets (Server.step config) (fun s event => unmixed s event) s events) :
    (Data.Run.run (Server.step config) s events).restrict tenant =
      Data.Run.run (Server.step config) (s.restrict tenant) (purge config tenant s events) := by
  induction events generalizing s with
  | nil => rfl
  | cons event events ih =>
    obtain ⟨here,rest⟩ := meets
    have step := restrict_step tenant config owned here
    have after := ih (owned.step config here) rest
    rw [step] at after
    unfold purge
    split_ifs at after ⊢ with about
    · exact after
    · exact after

theorem received_purge (config : Config) (tenant : String) {events : List Event}
    (meets : Data.Run.Meets (Server.step config) (fun s event => unmixed s event) .start events) :
    receivedBy tenant (Data.Run.run (Server.step config) .start events) =
      receivedBy tenant (Data.Run.run (Server.step config) .start (purge config tenant .start events)) := by
  have initial : Owned .start := ⟨nofun,by simp [Server.start],by simp [Server.start]⟩
  have same := restrict_run config tenant initial meets
  have clean : Server.start.restrict tenant = Server.start := by
    simp only [Server.restrict,Server.start,MemoryRunStore.restrict]
    rfl
  have twice (s : Server) : receivedBy tenant (s.restrict tenant) = receivedBy tenant s := by
    simp [receivedBy,Server.restrict]
  rw [clean] at same
  rw [← same,twice]

/-- Where no two tenants have keys that join to the same text, a response shows a run of the
tenant that it goes to, and what a tenant gets back does not depend on what concerns others. -/
theorem tenants_isolated (config : Config) (tenant : String) (events : List Event)
    (meets : Data.Run.Meets (Server.step config) (fun s event => unmixed s event) .start events) :
    (∀ m ∈ (Data.Run.run (Server.step config) .start events).sent,
      Belongs (Data.Run.run (Server.step config) .start events).store m) ∧
    ∀ others, Data.Run.Meets (Server.step config) (fun s event => unmixed s event) .start others →
      purge config tenant .start others = purge config tenant .start events →
        receivedBy tenant (Data.Run.run (Server.step config) .start others) =
          receivedBy tenant (Data.Run.run (Server.step config) .start events) := by
  have initial : Owned .start := ⟨nofun,by simp [Server.start],by simp [Server.start]⟩
  constructor
  · exact (Data.Run.invariant (I := Owned) (fun s event meets owned => owned.step config meets) initial meets).sent
  · intro others meets' same
    rw [received_purge config tenant meets',same,← received_purge config tenant meets]

namespace Sample

def writer (tenantId : String) : Principal := ⟨"writer",tenantId,["agent:write"]⟩

def posts (tenantId key id : String) : Event :=
  .request (writer tenantId) (.postRun (some ⟨"session","input"⟩) key id 0)

/-- Two tenants use the same key, and one of them repeats its request. -/
theorem tenants_isolated_keyed :
    (served [posts "acme" "k" "r",posts "initech" "k" "q",posts "acme" "k" "p"]).store.runs.rows.map (·.id) = ["r","q"] ∧
    ∀ m ∈ (served [posts "acme" "k" "r",posts "initech" "k" "q",posts "acme" "k" "p"]).sent,
      Belongs (served [posts "acme" "k" "r",posts "initech" "k" "q",posts "acme" "k" "p"]).store m := by
  constructor
  · decide +kernel
  · refine (tenants_isolated config "acme" _ ?_).1
    decide +kernel

/-- The tenant `a:b` gets the run that the tenant `a` created under `b:c`, and would have got
its own without that. -/
theorem tenants_mixed :
    ¬(∀ m ∈ (served [posts "a" "b:c" "r",posts "a:b" "c" "q"]).sent,
      Belongs (served [posts "a" "b:c" "r",posts "a:b" "c" "q"]).store m) ∧
    receivedBy "a:b" (served [posts "a" "b:c" "r",posts "a:b" "c" "q"]) ≠ receivedBy "a:b" (served [posts "a:b" "c" "q"]) ∧
    purge config "a:b" .start [posts "a" "b:c" "r",posts "a:b" "c" "q"] = purge config "a:b" .start [posts "a:b" "c" "q"] := by
  refine ⟨fun all => ?_,fun same => ?_,rfl⟩
  · have own : ∀ m ∈ (served [posts "a" "b:c" "r",posts "a:b" "c" "q"]).sent, ∀ r ∈ m.source, r.tenantId = m.tenantId :=
      fun m inside r source => ((all m inside).own r source).1
    exact absurd own (by decide +kernel)
  · have ids := congrArg (List.map fun r => match r with | .run _ body => body.id | _ => "") same
    exact absurd ids (by decide +kernel)

end Sample

end RatifyOs.Gateway.Api
