import RatifyOs.Autonomy.Delivery

/-! `InMemoryEventBus`: the events of one process, a chain of deliveries for each consumer,
and no record of failures. -/
namespace RatifyOs.Autonomy
open Data Data.Run Data.Consumption

/-- What a delivery goes through: the event of its `publish`, or all events from an index on. -/
inductive Walk where
  | event (x : StoredEvent)
  | sweep (index : ℕ)

structure Delivery where
  pass : ℕ
  sub : Sub
  walk : Walk

/-- `running` says that the delivery at the head of a chain waits for its handler. `known` is
the definition a consumer had when it was first seen, `handled` where handlers returned. -/
structure InMemoryEventBus where
  events : List StoredEvent
  subs : List Sub
  serial : ℕ
  offsets : String → ℕ
  chains : String → List Delivery
  running : String → Bool
  passes : ℕ → Option Pass
  count : ℕ
  known : List (String × Definition)
  handled : List (String × ℕ)

inductive MemoryEvent where
  | subscribe (name : String) (options : Options)
  | unsubscribe (name : String)
  | publish (envelope : EventEnvelope)
  | deliver
  | turn (pass : ℕ)
  | work (name : String)
  | settle (name : String) (answer : Except String Unit)

def Walk.current (events : List StoredEvent) : Walk → Option StoredEvent
  | .event x => some x
  | .sweep i => events[i]?

def Walk.direct : Walk → Bool
  | .event _ => true
  | .sweep _ => false

namespace InMemoryEventBus

def empty : InMemoryEventBus := ⟨[],[],1,fun _ => 0,fun _ => [],fun _ => false,fun _ => none,0,[],[]⟩

def subscribe (name : String) (options : Options) (b : InMemoryEventBus) : InMemoryEventBus :=
  if b.subs.any (·.name = name) then b
  else { b with
    subs := b.subs ++ [⟨b.serial,name,options.definition⟩]
    serial := b.serial + 1
    known := if (b.known.lookup name).isSome then b.known else b.known ++ [(name,options.definition)] }

def publish (envelope : EventEnvelope) (b : InMemoryEventBus) : InMemoryEventBus :=
  let stored : StoredEvent := ⟨b.events.length + 1,envelope⟩
  { b with
    events := b.events ++ [stored]
    passes := Function.update b.passes b.count (some ⟨some stored,0,false⟩)
    count := b.count + 1 }

def deliver (b : InMemoryEventBus) : InMemoryEventBus :=
  { b with passes := Function.update b.passes b.count (some ⟨none,0,false⟩), count := b.count + 1 }

def enqueue (name : String) (d : Delivery) (b : InMemoryEventBus) : InMemoryEventBus :=
  { b with chains := Function.update b.chains name (b.chains name ++ [d]) }

def turn (i : ℕ) (b : InMemoryEventBus) : InMemoryEventBus :=
  match b.passes i with
  | some ⟨stored,last,false⟩ =>
    match b.subs.find? (·.serial > last) with
    | some s =>
      enqueue s.name ⟨i,s,stored.elim (.sweep 0) .event⟩
        { b with passes := Function.update b.passes i (some ⟨stored,s.serial,true⟩) }
    | none => { b with passes := Function.update b.passes i none }
  | _ => b

/-- The chain goes on. A `publish` catches what its delivery throws, a `deliver` does not. -/
def release (name : String) (failed : Bool) (b : InMemoryEventBus) : InMemoryEventBus :=
  match b.chains name with
  | [] => b
  | t :: rest =>
    { b with
      chains := Function.update b.chains name rest
      passes := Function.update b.passes t.pass
        ((b.passes t.pass).bind fun p => if failed && !t.walk.direct then none else some { p with waiting := false }) }

/-- The delivery at the head is through with its event. -/
def advance (name : String) (b : InMemoryEventBus) : InMemoryEventBus :=
  match b.chains name with
  | [] => b
  | t :: rest =>
    match t.walk with
    | .event _ => b.release name false
    | .sweep i => { b with chains := Function.update b.chains name ({ t with walk := .sweep (i + 1) } :: rest) }

def setOffset (name : String) (cursor : ℕ) (b : InMemoryEventBus) : InMemoryEventBus :=
  { b with offsets := Function.update b.offsets name cursor }

section Steps
variable (c : BusConfig)

def work (name : String) (b : InMemoryEventBus) : InMemoryEventBus :=
  match b.running name,b.chains name with
  | false,t :: _ =>
    match t.walk.current b.events with
    | none => b.release name false
    | some x =>
      if x.cursor ≤ b.offsets name then b.advance name
      else if c.wants t.sub.definition x.envelope then { b with running := Function.update b.running name true }
      else (b.setOffset name x.cursor).advance name
  | _,_ => b

def settle (name : String) (answer : Except String Unit) (b : InMemoryEventBus) : InMemoryEventBus :=
  match b.running name,b.chains name with
  | true,t :: _ =>
    match t.walk.current b.events with
    | none => b
    | some x =>
      let b := { b with running := Function.update b.running name false }
      match answer with
      | .ok _ => { b with handled := b.handled ++ [(name,x.cursor)] }.setOffset name x.cursor |>.advance name
      | .error _ => b.release name true
  | _,_ => b

def step (b : InMemoryEventBus) : MemoryEvent → InMemoryEventBus
  | .subscribe name options => b.subscribe name options
  | .unsubscribe name => { b with subs := b.subs.filter (·.name ≠ name) }
  | .publish envelope => b.publish envelope
  | .deliver => b.deliver
  | .turn i => b.turn i
  | .work name => b.work c name
  | .settle name answer => b.settle name answer

end Steps

/-- The event that the step moves an offset to, and the delivery that does it. -/
def moved (c : BusConfig) (b : InMemoryEventBus) (event : MemoryEvent) : Option (Delivery × StoredEvent) :=
  let candidate (name : String) (moves : Delivery → StoredEvent → Bool) : Option (Delivery × StoredEvent) :=
    match b.chains name with
    | [] => none
    | t :: _ => (t.walk.current b.events).bind fun x => if moves t x then some (t,x) else none
  match event with
  | .work name => candidate name fun t x =>
      !b.running name && (b.offsets name < x.cursor : Bool) && !c.wants t.sub.definition x.envelope
  | .settle name (.ok _) => candidate name fun _ _ => b.running name
  | _ => none

/-- Where `publish` itself moves an offset, nothing else the consumer wants is left behind. -/
def InOrder (c : BusConfig) (b : InMemoryEventBus) (event : MemoryEvent) : Prop :=
  ∀ t x, b.moved c event = some (t,x) → t.walk.direct →
    Clear StoredEvent.cursor b.events (fun r => c.wants t.sub.definition r.envelope) (b.offsets t.sub.name) x.cursor

/-- A consumer that comes back comes back with the options it had. -/
def Renewed (b : InMemoryEventBus) : MemoryEvent → Prop
  | .subscribe name options => (∀ s ∈ b.subs, s.name ≠ name) → ∀ d ∈ b.known.lookup name, d = options.definition
  | _ => True

instance (c : BusConfig) (b : InMemoryEventBus) (event : MemoryEvent) : Decidable (InOrder c b event) :=
  decidable_of_iff (∀ m ∈ b.moved c event, m.1.walk.direct → ∀ r ∈ b.events, b.offsets m.1.sub.name < r.cursor →
      r.cursor ≤ m.2.cursor → c.wants m.1.sub.definition r.envelope → r.cursor = m.2.cursor)
    ⟨fun all t x moves => all (t,x) moves,fun all m moves => all m.1 m.2 moves⟩

instance (b : InMemoryEventBus) (event : MemoryEvent) : Decidable (b.Renewed event) := by
  cases event <;> unfold Renewed <;> infer_instance

def Caught (b : InMemoryEventBus) (name : String) : Walk → Prop
  | .event x => x ∈ b.events
  | .sweep i => i ≤ b.offsets name

structure Ordered (c : BusConfig) (b : InMemoryEventBus) : Prop where
  numbered : ∀ i x, b.events[i]? = some x → x.cursor = i + 1
  reach : ∀ n, b.offsets n ≤ b.events.length
  consumed : ∀ n d, b.known.lookup n = some d →
    Covered StoredEvent.cursor b.events (fun r => c.wants d r.envelope) (b.offsets n) (handledBy n b.handled) fun _ => False
  fresh : ∀ n, b.known.lookup n = none → b.offsets n = 0 ∧ handledBy n b.handled = []
  named : ∀ s ∈ b.subs, b.known.lookup s.name = some s.definition
  asked : ∀ n, ∀ t ∈ b.chains n, t.sub.name = n ∧ b.known.lookup n = some t.sub.definition
  caught : ∀ n, ∀ t ∈ b.chains n, b.Caught n t.walk
  pending : ∀ i p, b.passes i = some p → ∀ x ∈ p.stored, x ∈ b.events
  handling : ∀ n, b.running n → ∃ t rest x, b.chains n = t :: rest ∧ t.walk.current b.events = some x ∧
    b.offsets n < x.cursor

namespace Ordered
variable {c : BusConfig} {b : InMemoryEventBus} {name : String}

private theorem increasing (s : Ordered c b) : b.events.Pairwise fun x y => x.cursor < y.cursor := by
  rw [List.pairwise_iff_getElem]
  intro i j hi hj before
  rw [s.numbered i _ (List.getElem?_eq_getElem hi),s.numbered j _ (List.getElem?_eq_getElem hj)]
  omega

private theorem bounded (s : Ordered c b) {x : StoredEvent} (inside : x ∈ b.events) : 0 < x.cursor ∧ x.cursor ≤ b.events.length := by
  obtain ⟨i,hi,rfl⟩ := List.mem_iff_getElem.mp inside
  have := s.numbered i _ (List.getElem?_eq_getElem hi)
  omega

private theorem frame {b' : InMemoryEventBus} (s : Ordered c b) (events : b'.events = b.events) (offsets : b'.offsets = b.offsets)
    (known : b'.known = b.known) (handled : b'.handled = b.handled) (named : ∀ s ∈ b'.subs, s ∈ b.subs)
    (asked : ∀ n, ∀ t ∈ b'.chains n, t.sub.name = n ∧ b.known.lookup n = some t.sub.definition)
    (caught : ∀ n, ∀ t ∈ b'.chains n, b.Caught n t.walk) (pending : ∀ i p, b'.passes i = some p → ∀ x ∈ p.stored, x ∈ b.events)
    (handling : ∀ n, b'.running n → b.running n ∧ (b'.chains n).head? = (b.chains n).head?) : Ordered c b' := by
  refine ⟨by rw [events]; exact s.numbered,by rw [offsets,events]; exact s.reach,?_,?_,?_,by rw [known]; exact asked,?_,?_,?_⟩
  · rw [known,events,offsets,handled]
    exact s.consumed
  · rw [known,offsets,handled]
    exact s.fresh
  · rw [known]
    exact fun sub listed => s.named sub (named sub listed)
  · intro n t queued
    have := caught n t queued
    unfold Caught at this ⊢
    rw [events,offsets]
    exact this
  · rw [events]
    exact pending
  · intro n runs
    obtain ⟨was,head⟩ := handling n runs
    obtain ⟨t,rest,x,queued,current,ahead⟩ := s.handling n was
    rw [queued] at head
    cases chain : b'.chains n with
    | nil =>
      rw [chain] at head
      cases head
    | cons t' rest' =>
      rw [chain] at head
      cases head
      exact ⟨t,rest',x,rfl,by rw [events]; exact current,by rw [offsets]; exact ahead⟩

private theorem mem_update {chains : String → List Delivery} {queue : List Delivery} {n : String} {t : Delivery}
    (waits : t ∈ Function.update chains name queue n) : n = name ∧ t ∈ queue ∨ t ∈ chains n := by
  by_cases here : n = name
  · subst here
    rw [Function.update_self] at waits
    exact .inl ⟨rfl,waits⟩
  · rw [Function.update_of_ne here] at waits
    exact .inr waits

private theorem release (s : Ordered c b) (idle : b.running name = false) (failed : Bool) : Ordered c (b.release name failed) := by
  unfold InMemoryEventBus.release
  split
  · exact s
  · rename_i t rest queued
    have inside : ∀ n, ∀ t' ∈ Function.update b.chains name rest n, t' ∈ b.chains n := by
      intro n t' waits
      obtain ⟨rfl,later⟩ | other := mem_update waits
      · rw [queued]
        exact List.mem_cons_of_mem _ later
      · exact other
    refine s.frame rfl rfl rfl rfl (fun _ => id) (fun n t' waits => s.asked n t' (inside n t' waits))
      (fun n t' waits => s.caught n t' (inside n t' waits)) ?_ ?_
    · intro i p found x given
      by_cases here : i = t.pass
      · subst here
        simp only [Function.update_self] at found
        obtain ⟨q,was,became⟩ := Option.bind_eq_some_iff.mp found
        refine s.pending _ q was x ?_
        split at became
        · cases became
        · cases became
          exact given
      · simp only [Function.update_of_ne here] at found
        exact s.pending i p found x given
    · intro n runs
      refine ⟨runs,?_⟩
      have here : n ≠ name := by
        intro same
        rw [same,idle] at runs
        cases runs
      simp only [Function.update_of_ne here]

private theorem advance (s : Ordered c b) (idle : b.running name = false)
    (further : ∀ t rest i, b.chains name = t :: rest → t.walk = .sweep i → i + 1 ≤ b.offsets name) :
    Ordered c (b.advance name) := by
  unfold InMemoryEventBus.advance
  split
  · exact s
  · rename_i t rest queued
    split
    · exact s.release idle false
    · rename_i i sweeps
      have old := s.asked name
      have caught := s.caught name
      rw [queued] at old caught
      simp only [List.forall_mem_cons] at old caught
      refine s.frame rfl rfl rfl rfl (fun _ => id) ?_ ?_ s.pending ?_
      · intro n t' waits
        obtain ⟨rfl,here⟩ | other := mem_update waits
        · obtain rfl | later := List.mem_cons.mp here
          · exact old.1
          · exact old.2 t' later
        · exact s.asked n t' other
      · intro n t' waits
        obtain ⟨rfl,here⟩ | other := mem_update waits
        · obtain rfl | later := List.mem_cons.mp here
          · exact further t rest i queued sweeps
          · exact caught.2 t' later
        · exact s.caught n t' other
      · intro n runs
        refine ⟨runs,?_⟩
        have here : n ≠ name := by
          intro same
          rw [same,idle] at runs
          cases runs
        simp only [Function.update_of_ne here]

/-- An offset goes on, and what has been skipped or handled is accounted for. -/
private theorem move (s : Ordered c b) (idle : b.running name = false) {d : Definition} {k : ℕ} {handled : List (String × ℕ)}
    (known : b.known.lookup name = some d) (next : b.offsets name < k) (upto : k ≤ b.events.length)
    (done : Covered StoredEvent.cursor b.events (fun r => c.wants d r.envelope) k (handledBy name handled) fun _ => False)
    (others : ∀ m, m ≠ name → handledBy m handled = handledBy m b.handled) :
    Ordered c ({ b with handled }.setOffset name k) := by
  have elsewhere (m : String) (other : m ≠ name) : ({ b with handled }.setOffset name k).offsets m = b.offsets m :=
    Function.update_of_ne other _ _
  have here : ({ b with handled }.setOffset name k).offsets name = k := Function.update_self _ _ _
  refine ⟨s.numbered,?_,?_,?_,s.named,s.asked,?_,s.pending,?_⟩
  · intro m
    by_cases same : m = name
    · rw [same,here]
      exact upto
    · rw [elsewhere m same]
      exact s.reach m
  · intro m d' known'
    by_cases same : m = name
    · subst same
      rw [here]
      change b.known.lookup m = some d' at known'
      rw [known,Option.some.injEq] at known'
      exact known' ▸ done
    · rw [elsewhere m same]
      change Covered _ _ _ _ (handledBy m handled) _
      rw [others m same]
      exact s.consumed m d' known'
  · intro m unknown
    have same : m ≠ name := by
      intro same
      subst same
      change b.known.lookup m = none at unknown
      rw [known] at unknown
      cases unknown
    rw [elsewhere m same]
    exact ⟨(s.fresh m unknown).1,(others m same).trans (s.fresh m unknown).2⟩
  · intro m t queued
    have was := s.caught m t queued
    cases walk : t.walk with
    | event x =>
      rw [walk] at was
      exact was
    | sweep i =>
      rw [walk] at was
      by_cases same : m = name
      · subst same
        change i ≤ b.offsets m at was
        change i ≤ _
        rw [here]
        omega
      · change i ≤ _
        rw [elsewhere m same]
        exact was
  · intro m runs
    have same : m ≠ name := by
      intro same
      subst same
      change b.running m = true at runs
      rw [idle] at runs
      cases runs
    rw [elsewhere m same]
    exact s.handling m runs

private theorem head (s : Ordered c b) {event : MemoryEvent} (inOrder : InOrder c b event) {t : Delivery} {rest : List Delivery}
    {x : StoredEvent} (queued : b.chains name = t :: rest) (current : t.walk.current b.events = some x)
    (moves : b.moved c event = some (t,x)) (next : b.offsets name < x.cursor) :
    x ∈ b.events ∧ Clear StoredEvent.cursor b.events (fun r => c.wants t.sub.definition r.envelope) (b.offsets name) x.cursor ∧
      ∀ i, t.walk = .sweep i → i + 1 = x.cursor := by
  have caught := s.caught name t (by rw [queued]; exact List.mem_cons_self)
  have asked := s.asked name t (by rw [queued]; exact List.mem_cons_self)
  cases walk : t.walk with
  | event y =>
    rw [walk] at caught current
    obtain rfl := Option.some.inj current
    refine ⟨caught,?_,fun i sweeps => nomatch sweeps⟩
    have clear := inOrder t y moves (by rw [walk]; rfl)
    rw [asked.1] at clear
    exact clear
  | sweep i =>
    rw [walk] at caught current
    have number := s.numbered i x current
    refine ⟨List.mem_of_getElem? current,?_,?_⟩
    · intro r inside after upto _
      change i ≤ b.offsets name at caught
      omega
    · intro j sweeps
      cases sweeps
      exact number.symm

private theorem work (s : Ordered c b) (name : String) (inOrder : InOrder c b (.work name)) : Ordered c (b.work c name) := by
  unfold InMemoryEventBus.work
  split
  · rename_i t rest idle queued
    have asked := s.asked name t (by rw [queued]; exact List.mem_cons_self)
    cases current : t.walk.current b.events with
    | none => exact s.release idle false
    | some x =>
      dsimp only
      split
      · rename_i taken
        refine s.advance idle ?_
        intro t' rest' i queued' sweeps
        rw [queued,List.cons.injEq] at queued'
        obtain ⟨rfl,rfl⟩ := queued'
        rw [sweeps] at current
        have := s.numbered i x current
        omega
      · rename_i ahead
        have next : b.offsets name < x.cursor := by omega
        split
        · refine ⟨s.numbered,s.reach,s.consumed,s.fresh,s.named,s.asked,s.caught,s.pending,?_⟩
          intro n runs
          by_cases here : n = name
          · subst here
            exact ⟨t,rest,x,queued,current,next⟩
          · exact s.handling n (by simpa [here] using runs)
        · rename_i unwanted
          have moves : b.moved c (.work name) = some (t,x) := by
            simp [moved,queued,current,idle,next,unwanted]
          obtain ⟨inside,clear,number⟩ := s.head inOrder queued current moves next
          have done := (s.consumed name _ asked.2).pass next clear fun r inside' same wanted => by
            rw [Consumption.eq_of_cursor s.increasing inside' inside same] at wanted
            exact unwanted wanted
          refine (s.move idle asked.2 next (s.bounded inside).2 done fun _ _ => rfl).advance idle ?_
          intro t' rest' i queued' sweeps
          change b.chains name = t' :: rest' at queued'
          rw [queued,List.cons.injEq] at queued'
          obtain ⟨rfl,rfl⟩ := queued'
          rw [number i sweeps]
          exact Nat.le_of_eq (Function.update_self name x.cursor b.offsets).symm
  · exact s

private theorem settle (s : Ordered c b) (name : String) (answer : Except String Unit)
    (inOrder : InOrder c b (.settle name answer)) : Ordered c (b.settle name answer) := by
  unfold InMemoryEventBus.settle
  split
  · rename_i t rest runs queued
    obtain ⟨t',rest',x,queued',current,next⟩ := s.handling name runs
    rw [queued,List.cons.injEq] at queued'
    obtain ⟨rfl,rfl⟩ := queued'
    have asked := s.asked name t (by rw [queued]; exact List.mem_cons_self)
    have idle : ({ b with running := Function.update b.running name false } : InMemoryEventBus).running name = false :=
      Function.update_self _ _ _
    have still : Ordered c { b with running := Function.update b.running name false } := by
      refine s.frame rfl rfl rfl rfl (fun _ => id) s.asked s.caught s.pending ?_
      intro n now
      refine ⟨?_,rfl⟩
      by_cases here : n = name
      · subst here
        exact runs
      · simpa [here] using now
    rw [current]
    cases answer with
    | error error => exact still.release idle true
    | ok _ =>
      have moves : b.moved c (.settle name (.ok ())) = some (t,x) := by
        simp [moved,queued,current,runs]
      obtain ⟨inside,clear,number⟩ := s.head inOrder queued current moves next
      have done := (s.consumed name _ asked.2).handle next clear
      dsimp only
      refine (still.move idle asked.2 next (s.bounded inside).2 ?_ ?_).advance idle ?_
      · rw [handledBy_append,if_pos rfl]
        exact done
      · intro m other
        rw [handledBy_append,if_neg other.symm]
      · intro t' rest' i queued' sweeps
        change b.chains name = t' :: rest' at queued'
        rw [queued,List.cons.injEq] at queued'
        obtain ⟨rfl,rfl⟩ := queued'
        rw [number i sweeps]
        exact Nat.le_of_eq (Function.update_self name x.cursor b.offsets).symm
  · exact s

private theorem subscribe (s : Ordered c b) (name : String) (options : Options)
    (renewed : b.Renewed (.subscribe name options)) : Ordered c (b.subscribe name options) := by
  unfold InMemoryEventBus.subscribe
  split
  · exact s
  · rename_i fresh
    have unused : ∀ s ∈ b.subs, s.name ≠ name := by simpa using fresh
    have lookup : ∀ n, (if (b.known.lookup name).isSome then b.known else b.known ++ [(name,options.definition)]).lookup n =
        (b.known.lookup n).or (if n = name then some options.definition else none) :=
      fun n => lookup_insert b.known name n options.definition
    have kept : ∀ n d, b.known.lookup n = some d →
        (if (b.known.lookup name).isSome then b.known else b.known ++ [(name,options.definition)]).lookup n = some d := by
      intro n d known
      rw [lookup,known,Option.some_or]
    refine ⟨s.numbered,s.reach,?_,?_,?_,?_,s.caught,s.pending,s.handling⟩
    · intro n d known
      rw [lookup] at known
      cases old : b.known.lookup n with
      | some d' =>
        rw [old,Option.some_or,Option.some.injEq] at known
        exact known ▸ s.consumed n d' old
      | none =>
        obtain ⟨zero,none_⟩ := s.fresh n old
        change Covered _ _ _ (b.offsets n) (handledBy n b.handled) _
        rw [zero,none_]
        exact covered_zero fun x inside => (s.bounded inside).1
    · intro n unknown
      rw [lookup,Option.or_eq_none_iff] at unknown
      exact s.fresh n unknown.1
    · simp only [List.forall_mem_append,List.forall_mem_singleton]
      refine ⟨fun sub listed => kept _ _ (s.named sub listed),?_⟩
      rw [lookup,if_pos rfl]
      cases old : b.known.lookup name with
      | none => rfl
      | some d => rw [renewed unused d old,Option.some_or]
    · intro n t queued
      exact ⟨(s.asked n t queued).1,kept _ _ (s.asked n t queued).2⟩

private theorem publish (s : Ordered c b) (envelope : EventEnvelope) : Ordered c (b.publish envelope) := by
  have grows (w : Walk) {x : StoredEvent} (current : w.current b.events = some x) (more : List StoredEvent) :
      w.current (b.events ++ more) = some x := by
    cases w with
    | event y => exact current
    | sweep i =>
      obtain ⟨bound,_⟩ := List.getElem?_eq_some_iff.mp current
      exact (List.getElem?_append_left bound).trans current
  refine ⟨?_,?_,?_,s.fresh,s.named,s.asked,?_,?_,?_⟩
  · intro i x found
    simp only [InMemoryEventBus.publish,List.getElem?_append] at found
    split at found
    · exact s.numbered i x found
    · obtain ⟨bound,is_new⟩ := List.getElem?_eq_some_iff.mp found
      simp only [List.length_singleton] at bound
      rw [← is_new,List.getElem_singleton]
      simp only
      omega
  · intro n
    have := s.reach n
    simp only [InMemoryEventBus.publish,List.length_append,List.length_singleton]
    omega
  · intro n d known
    have := s.reach n
    exact (s.consumed n d known).append (Nat.lt_succ_of_le this)
  · intro n t queued
    have was := s.caught n t queued
    cases walk : t.walk with
    | event x =>
      rw [walk] at was
      exact List.mem_append_left _ was
    | sweep i =>
      rw [walk] at was
      exact was
  · intro i p found x given
    by_cases here : i = b.count
    · simp only [InMemoryEventBus.publish,here,Function.update_self] at found
      cases found
      cases given
      simp [InMemoryEventBus.publish]
    · simp only [InMemoryEventBus.publish,Function.update_of_ne here] at found
      exact List.mem_append_left _ (s.pending i p found x given)
  · intro n runs
    obtain ⟨t,rest,x,queued,current,ahead⟩ := s.handling n runs
    exact ⟨t,rest,x,queued,grows t.walk current _,ahead⟩

private theorem turn (s : Ordered c b) (i : ℕ) : Ordered c (b.turn i) := by
  unfold InMemoryEventBus.turn
  split
  · rename_i stored last here
    have known : ∀ x ∈ stored, x ∈ b.events := s.pending i _ here
    have updated (p : Option Pass) (same : ∀ p', p = some p' → p'.stored = stored) :
        ∀ j p', Function.update b.passes i p j = some p' → ∀ x ∈ p'.stored, x ∈ b.events := by
      intro j p' found x given
      obtain ⟨q,was,stored'⟩ := passes_update found fun p' became => ⟨here,same p' became⟩
      exact s.pending j q was x (stored' ▸ given)
    split
    · rename_i sub next
      have listed := List.mem_of_find?_eq_some next
      refine s.frame rfl rfl rfl rfl (fun _ => id) ?_ ?_ (updated _ ?_) ?_
      · intro n t queued
        obtain ⟨rfl,waits⟩ | other := mem_update queued
        · obtain old | new := List.mem_append.mp waits
          · exact s.asked _ t old
          · rw [List.mem_singleton.mp new]
            exact ⟨rfl,s.named sub listed⟩
        · exact s.asked n t other
      · intro n t queued
        obtain ⟨rfl,waits⟩ | other := mem_update queued
        · obtain old | new := List.mem_append.mp waits
          · exact s.caught _ t old
          · rw [List.mem_singleton.mp new]
            cases stored with
            | none => exact Nat.zero_le _
            | some x => exact known x rfl
        · exact s.caught n t other
      · intro p' became
        cases became
        rfl
      · intro n runs
        refine ⟨runs,?_⟩
        obtain ⟨t,rest,x,queued,_⟩ := s.handling n runs
        simp only [enqueue]
        by_cases same : n = sub.name
        · subst same
          rw [Function.update_self,queued]
          rfl
        · rw [Function.update_of_ne same]
    · exact s.frame rfl rfl rfl rfl (fun _ => id) s.asked s.caught (updated none fun _ became => nomatch became)
        fun n runs => ⟨runs,rfl⟩
  · exact s

theorem step (s : Ordered c b) (event : MemoryEvent) (inOrder : InOrder c b event) (renewed : b.Renewed event) :
    Ordered c (b.step c event) := by
  cases event with
  | subscribe name options => exact s.subscribe name options renewed
  | unsubscribe name =>
    exact s.frame rfl rfl rfl rfl (fun _ => List.mem_of_mem_filter) s.asked s.caught s.pending fun n runs => ⟨runs,rfl⟩
  | publish envelope => exact s.publish envelope
  | deliver =>
    refine s.frame rfl rfl rfl rfl (fun _ => id) s.asked s.caught ?_ fun n runs => ⟨runs,rfl⟩
    intro i p found x given
    by_cases here : i = b.count
    · simp only [InMemoryEventBus.step,InMemoryEventBus.deliver,here,Function.update_self] at found
      cases found
      cases given
    · simp only [InMemoryEventBus.step,InMemoryEventBus.deliver,Function.update_of_ne here] at found
      exact s.pending i p found x given
  | turn i => exact s.turn i
  | work name => exact s.work name inOrder
  | settle name answer => exact s.settle name answer inOrder

end Ordered

end InMemoryEventBus

section Runs
variable (c : BusConfig)

end Runs

section Skips

/-- Here the next `deliver` hands the first event over before the second is published. -/
private def retried : List BusEvent := [.subscribe "a" ⟨none,none,none⟩,.publish (event "first"),.turn 0,.work,
  .settle (.error "busy"),.turn 0,.deliver,.turn 1,.work,.work,.settle (.ok ()),.work,.turn 1,.publish (event "second"),
  .turn 2,.work,.settle (.ok ()),.work,.turn 2]

end Skips

end RatifyOs.Autonomy
