import RatifyOs.Autonomy.Outbox

/-! The consumers of the bus over whole runs: what lies up to an offset was handled in
order or put aside, as long as `publish` moves no consumer past an event it still owes. -/
namespace RatifyOs.Autonomy
open Data Data.Run Data.Consumption SqliteEventBus

/-- The event is recorded in `dead_letters`, and all its attempts have failed. -/
def Dead (c : BusConfig) (t : BusTables) (consumer : String) (cursor : ℕ) : Prop :=
  (∃ d ∈ t.deadLetters, d.consumer = consumer ∧ d.cursor = cursor) ∧
    c.attemptsAllowed ≤ (t.attempts consumer cursor : ℤ)

def handledBy (consumer : String) (handled : List (String × ℕ)) : List ℕ :=
  (handled.filter (·.1 = consumer)).map (·.2)

/-- Every event the consumer wants up to its offset was handled, in order, or is dead. -/
abbrev Consumed (c : BusConfig) (t : BusTables) (handled : List (String × ℕ)) (consumer : String) (d : Definition) : Prop :=
  Covered StoredEvent.cursor t.outbox (fun r => c.wants d r.envelope) (t.offsets consumer) (handledBy consumer handled)
    (Dead c t consumer)

/-- The event that the step moves a consumer's offset to. -/
def moved (c : BusConfig) (b : SqliteEventBus) (event : BusEvent) : Option (Task × StoredEvent) :=
  match b.queue with
  | [] => none
  | t :: _ =>
    match t.todo with
    | [] => none
    | x :: _ =>
      let moves : Bool := match event with
        | .work => b.saved.isNone && (b.tables.offsets t.sub.name < x.cursor : Bool) &&
            !c.wants t.sub.definition x.envelope
        | .settle (.ok _) => b.saved.isSome
        | .settle (.error _) => b.saved.any fun before =>
            ((before.attempts t.sub.name x.cursor + 1 : ℕ) : ℤ) ≥ c.attemptsAllowed
        | _ => false
      if moves then some (t,x) else none

/-- Where `publish` itself moves an offset, nothing else the consumer wants is left behind,
and the published event is wanted as the stored one is. -/
def InOrder (c : BusConfig) (b : SqliteEventBus) (event : BusEvent) : Prop :=
  ∀ t x, moved c b event = some (t,x) → t.direct → ∀ r ∈ b.tables.outbox,
    b.tables.offsets t.sub.name < r.cursor → r.cursor ≤ x.cursor → c.wants t.sub.definition r.envelope →
      r.cursor = x.cursor ∧ c.wants t.sub.definition x.envelope

instance (c : BusConfig) (b : SqliteEventBus) (event : BusEvent) : Decidable (InOrder c b event) :=
  decidable_of_iff (∀ m ∈ moved c b event, m.1.direct → ∀ r ∈ b.tables.outbox,
      b.tables.offsets m.1.sub.name < r.cursor → r.cursor ≤ m.2.cursor → c.wants m.1.sub.definition r.envelope →
        r.cursor = m.2.cursor ∧ c.wants m.1.sub.definition m.2.envelope)
    ⟨fun all t x moves => all (t,x) moves,fun all m moves => all m.1 m.2 moves⟩

/-- A rollback takes back nothing but what the delivery itself wrote. -/
def Undisturbed (b : SqliteEventBus) (event : BusEvent) : Prop :=
  Lossless b event ∧ (event.rollsBack → ∀ before ∈ b.saved, before.subscriptions = b.tables.subscriptions)

/-- What the tables say about every consumer. -/
structure Consumers (c : BusConfig) (t : BusTables) (handled : List (String × ℕ)) : Prop where
  normal : ∀ r ∈ t.outbox, c.normalize r.envelope = .ok r.envelope
  positive : ∀ r ∈ t.outbox, 0 < r.cursor
  reach : ∀ n, t.offsets n ≤ t.seq
  consumed : ∀ n d, t.subscriptions.lookup n = some d → Consumed c t handled n d
  fresh : ∀ n, t.subscriptions.lookup n = none → t.offsets n = 0 ∧ handledBy n handled = []

/-- What the calls in flight rely on. -/
structure Lanes (b : SqliteEventBus) : Prop where
  upto : ∀ t ∈ b.queue, ∀ x ∈ t.todo, x.cursor ≤ b.tables.seq
  known : ∀ s ∈ b.subs, b.tables.subscriptions.lookup s.name = some s.definition
  asked : ∀ t ∈ b.queue, b.tables.subscriptions.lookup t.sub.name = some t.sub.definition
  waiting : ∀ t ∈ b.queue.tail, t.direct = false → t.todo = []
  front : ∀ t ∈ b.queue.head?, t.direct = false →
    t.todo <+: pending StoredEvent.cursor b.tables.outbox (b.tables.offsets t.sub.name)
  handling : b.saved.isSome → ∃ t rest x todo, b.queue = t :: rest ∧ t.todo = x :: todo ∧
    b.tables.offsets t.sub.name < x.cursor
  saved : ∀ t ∈ b.saved, t.offsets = b.tables.offsets ∧ t.retries = b.tables.retries ∧
    t.deadLetters = b.tables.deadLetters ∧ t.inbox = b.tables.inbox

structure Delivered (c : BusConfig) (b : SqliteEventBus) : Prop where
  stored : Stored b
  consumers : Consumers c b.tables b.handled
  lanes : Lanes b

section Steps
variable {c : BusConfig} {b : SqliteEventBus}

theorem handledBy_append (n m : String) (k : ℕ) (handled : List (String × ℕ)) :
    handledBy n (handled ++ [(m,k)]) = if m = n then handledBy n handled ++ [k] else handledBy n handled := by
  unfold handledBy
  rw [List.filter_append,List.map_append]
  by_cases same : m = n <;> simp [same]

private theorem consumed_other {t t' : BusTables} {handled handled' : List (String × ℕ)} {n : String} {d : Definition}
    (was : Consumed c t handled n d) (outbox : t'.outbox = t.outbox) (offset : t'.offsets n = t.offsets n)
    (retries : t'.retries n = t.retries n) (dead : ∀ l ∈ t.deadLetters, l ∈ t'.deadLetters)
    (same : handledBy n handled' = handledBy n handled) : Consumed c t' handled' n d := by
  unfold Consumed
  rw [outbox,offset,same]
  refine was.mono fun j _ gone => ?_
  obtain ⟨⟨l,listed,about⟩,enough⟩ := gone
  refine ⟨⟨l,dead l listed,about⟩,?_⟩
  unfold BusTables.attempts at enough ⊢
  rw [retries]
  exact enough

section Consumer
variable {t : BusTables} {handled : List (String × ℕ)} {n : String} {d : Definition} {x : StoredEvent}

private theorem attempts_setRetry (t : BusTables) (n : String) (k j : ℕ) (row : Option (ℕ × String)) :
    (t.setRetry n k row).attempts n j = if j = k then (row.map (·.1)).getD 0 else t.attempts n j := by
  unfold BusTables.attempts BusTables.setRetry
  by_cases here : j = k <;> simp [here]

/-- What is said of cursors up to the offset is not changed by a retry beyond it. -/
private theorem consumed_retry (was : Consumed c t handled n d) (next : t.offsets n < x.cursor)
    (row : Option (ℕ × String)) : Consumed c (t.setRetry n x.cursor row) handled n d := by
  refine was.mono fun j upto gone => ⟨gone.1,?_⟩
  rw [attempts_setRetry,if_neg (by omega)]
  exact gone.2

private theorem consumed_handle (was : Consumed c t handled n d) (next : t.offsets n < x.cursor)
    (clear : Clear StoredEvent.cursor t.outbox (fun r => c.wants d r.envelope) (t.offsets n) x.cursor) :
    Consumed c (t.acknowledge n x) (handled ++ [(n,x.cursor)]) n d := by
  have retried := consumed_retry was next none
  have moved := retried.handle next clear
  unfold Consumed
  rw [handledBy_append,if_pos rfl,offsets_acknowledge,if_pos rfl]
  exact moved

private theorem consumed_skip (was : Consumed c t handled n d) (next : t.offsets n < x.cursor)
    (clear : Clear StoredEvent.cursor t.outbox (fun r => c.wants d r.envelope) (t.offsets n) x.cursor)
    (unwanted : ∀ r ∈ t.outbox, r.cursor = x.cursor → ¬c.wants d r.envelope) :
    Consumed c (t.acknowledge n x) handled n d := by
  have retried := consumed_retry was next none
  have moved := retried.pass next clear fun r inside same wanted => absurd wanted (unwanted r inside same)
  unfold Consumed
  rw [offsets_acknowledge,if_pos rfl]
  exact moved

private theorem deadLetters_bury (t : BusTables) (n : String) (x : StoredEvent) (error : String) :
    (∀ l ∈ t.deadLetters, l ∈ (t.bury n x error).deadLetters) ∧
      ∃ l ∈ (t.bury n x error).deadLetters, l.consumer = n ∧ l.cursor = x.cursor := by
  unfold BusTables.bury BusTables.setOffset
  dsimp only
  by_cases there : t.deadLetters.any fun d => d.consumer = n ∧ d.cursor = x.cursor
  · rw [if_pos there]
    obtain ⟨l,was,about⟩ := List.any_eq_true.mp there
    exact ⟨fun _ => id,l,was,by simpa using about⟩
  · rw [if_neg there]
    exact ⟨fun _ => List.mem_append_left _,_,List.mem_append_right _ List.mem_cons_self,rfl,rfl⟩

private theorem consumed_bury (was : Consumed c t handled n d) (next : t.offsets n < x.cursor)
    (clear : Clear StoredEvent.cursor t.outbox (fun r => c.wants d r.envelope) (t.offsets n) x.cursor)
    {attempts : ℕ} (enough : c.attemptsAllowed ≤ attempts) (error : String) :
    Consumed c ((t.setRetry n x.cursor (some (attempts,error))).bury n x error) handled n d := by
  have retried := consumed_retry was next (some (attempts,error))
  have offset : ((t.setRetry n x.cursor (some (attempts,error))).bury n x error).offsets n = x.cursor := by
    simp [BusTables.bury,BusTables.setOffset]
  obtain ⟨listed,there⟩ := deadLetters_bury (t.setRetry n x.cursor (some (attempts,error))) n x error
  have gone : Dead c ((t.setRetry n x.cursor (some (attempts,error))).bury n x error) n x.cursor := by
    refine ⟨there,?_⟩
    change c.attemptsAllowed ≤ ((t.setRetry n x.cursor (some (attempts,error))).attempts n x.cursor : ℤ)
    rw [attempts_setRetry,if_pos rfl]
    exact enough
  unfold Consumed
  rw [offset]
  refine (retried.mono fun j _ dead => ?_).pass next clear fun _ _ _ _ => gone
  obtain ⟨⟨l,was,about⟩,failed⟩ := dead
  exact ⟨⟨l,listed l was,about⟩,failed⟩

end Consumer

theorem lookup_insert {δ : Type} (known : List (String × δ)) (name n : String) (d : δ) :
    (if (known.lookup name).isSome then known else known ++ [(name,d)]).lookup n =
      (known.lookup n).or (if n = name then some d else none) := by
  by_cases here : n = name
  · subst here
    cases old : known.lookup n <;> simp [old,List.lookup_append]
  · have other : (n == name) = false := by simpa using here
    split <;> simp [other,List.lookup_append,List.lookup_cons]

namespace Consumers
variable {t : BusTables} {handled : List (String × ℕ)}

private theorem lookup_subscribe (t : BusTables) (name n : String) (d : Definition) :
    (t.subscribe name d).subscriptions.lookup n =
      (t.subscriptions.lookup n).or (if n = name then some d else none) := by
  rw [← lookup_insert]
  unfold BusTables.subscribe
  split <;> rfl

private theorem subscribe_same (t : BusTables) (name : String) (d : Definition) :
    (t.subscribe name d).outbox = t.outbox ∧ (t.subscribe name d).seq = t.seq ∧ (t.subscribe name d).offsets = t.offsets ∧
      (t.subscribe name d).retries = t.retries ∧ (t.subscribe name d).deadLetters = t.deadLetters ∧
      (t.subscribe name d).inbox = t.inbox := by
  unfold BusTables.subscribe
  split <;> simp

theorem subscribe (s : Consumers c t handled) (name : String) (d : Definition) :
    Consumers c (t.subscribe name d) handled := by
  obtain ⟨outbox,seq,offsets,retries,dead,_⟩ := subscribe_same t name d
  refine ⟨by rw [outbox]; exact s.normal,by rw [outbox]; exact s.positive,by rw [offsets,seq]; exact s.reach,?_,?_⟩
  · intro n d' known
    rw [lookup_subscribe] at known
    cases old : t.subscriptions.lookup n with
    | some d'' =>
      rw [old,Option.some_or,Option.some.injEq] at known
      subst known
      exact consumed_other (s.consumed n d'' old) outbox (by rw [offsets]) (by rw [retries]) (by rw [dead]; exact fun _ => id) rfl
    | none =>
      obtain ⟨zero,none_⟩ := s.fresh n old
      unfold Consumed
      rw [outbox,offsets,zero,none_]
      exact covered_zero s.positive
  · intro n unknown
    rw [lookup_subscribe,Option.or_eq_none_iff] at unknown
    rw [offsets]
    exact s.fresh n unknown.1

theorem insert (s : Consumers c t handled) {envelope : EventEnvelope} (normal : c.normalize envelope = .ok envelope) :
    Consumers c { t with outbox := t.outbox ++ [⟨t.seq + 1,envelope⟩], seq := t.seq + 1 } handled := by
  refine ⟨?_,?_,?_,?_,s.fresh⟩
  · simp only [List.forall_mem_append,List.forall_mem_singleton]
    exact ⟨s.normal,normal⟩
  · simp only [List.forall_mem_append,List.forall_mem_singleton]
    exact ⟨s.positive,Nat.succ_pos _⟩
  · intro n
    have := s.reach n
    simp only
    omega
  · intro n d known
    have := s.reach n
    exact (s.consumed n d known).append (Nat.lt_succ_of_le this)

private theorem one (s : Consumers c t handled) {t' : BusTables} {handled' : List (String × ℕ)} {n : String} {d : Definition}
    (outbox : t'.outbox = t.outbox) (seq : t'.seq = t.seq) (subscriptions : t'.subscriptions = t.subscriptions)
    (offset : t'.offsets n ≤ t.seq) (known : t.subscriptions.lookup n = some d) (done : Consumed c t' handled' n d)
    (offsets : ∀ m, m ≠ n → t'.offsets m = t.offsets m) (retries : ∀ m, m ≠ n → t'.retries m = t.retries m)
    (dead : ∀ l ∈ t.deadLetters, l ∈ t'.deadLetters) (others : ∀ m, m ≠ n → handledBy m handled' = handledBy m handled) :
    Consumers c t' handled' := by
  refine ⟨by rw [outbox]; exact s.normal,by rw [outbox]; exact s.positive,?_,?_,?_⟩
  · intro m
    rw [seq]
    by_cases here : m = n
    · rw [here]
      exact offset
    · rw [offsets m here]
      exact s.reach m
  · intro m d' known'
    rw [subscriptions] at known'
    by_cases here : m = n
    · subst here
      rw [known,Option.some.injEq] at known'
      exact known' ▸ done
    · exact consumed_other (s.consumed m d' known') outbox (offsets m here) (retries m here) dead (others m here)
  · intro m unknown
    rw [subscriptions] at unknown
    have here : m ≠ n := by
      intro same
      rw [same,known] at unknown
      cases unknown
    rw [offsets m here,others m here]
    exact s.fresh m unknown

/-- One consumer goes on to an event that was published. -/
private theorem move (s : Consumers c t handled) {t' : BusTables} {handled' : List (String × ℕ)} {n : String} {d : Definition} {cursor : ℕ}
    (outbox : t'.outbox = t.outbox) (seq : t'.seq = t.seq) (subscriptions : t'.subscriptions = t.subscriptions)
    (upto : cursor ≤ t.seq) (offsets : ∀ m, t'.offsets m = if m = n then cursor else t.offsets m)
    (known : t.subscriptions.lookup n = some d) (done : Consumed c t' handled' n d) (retries : ∀ m, m ≠ n → t'.retries m = t.retries m)
    (dead : ∀ l ∈ t.deadLetters, l ∈ t'.deadLetters) (others : ∀ m, m ≠ n → handledBy m handled' = handledBy m handled) :
    Consumers c t' handled' := by
  refine s.one outbox seq subscriptions ?_ known done ?_ retries dead others
  · rw [offsets,if_pos rfl]
    exact upto
  · intro m other
    rw [offsets,if_neg other]

end Consumers

namespace Lanes

private theorem frame {b' : SqliteEventBus} (l : Lanes b) (seq : b.tables.seq ≤ b'.tables.seq)
    (outbox : b.tables.outbox <+: b'.tables.outbox) (offsets : b'.tables.offsets = b.tables.offsets)
    (queue : b'.queue = b.queue) (saved : b'.saved = b.saved)
    (lookup : ∀ n d, b.tables.subscriptions.lookup n = some d → b'.tables.subscriptions.lookup n = some d)
    (known : ∀ s ∈ b'.subs, b'.tables.subscriptions.lookup s.name = some s.definition)
    (others : b'.tables.retries = b.tables.retries ∧ b'.tables.deadLetters = b.tables.deadLetters ∧
      b'.tables.inbox = b.tables.inbox) : Lanes b' := by
  refine ⟨?_,known,?_,?_,?_,?_,?_⟩
  · rw [queue]
    exact fun t queued x listed => Nat.le_trans (l.upto t queued x listed) seq
  · rw [queue]
    exact fun t queued => lookup _ _ (l.asked t queued)
  · rw [queue]
    exact l.waiting
  · rw [queue,offsets]
    exact fun t first catching => (l.front t first catching).trans (outbox.filter _)
  · rw [queue,saved,offsets]
    exact l.handling
  · rw [saved,offsets,others.1,others.2.1,others.2.2]
    exact l.saved

private theorem requeue (l : Lanes b) {t : Task} {rest : List Task} {tables : BusTables} {saved : Option BusTables}
    {todo : List StoredEvent} {refill : Bool} {handled : List (String × ℕ)} (queued : b.queue = t :: rest)
    (idle : saved = none) (outbox : tables.outbox = b.tables.outbox) (seq : tables.seq = b.tables.seq)
    (subscriptions : tables.subscriptions = b.tables.subscriptions) (upto : ∀ x ∈ todo, x.cursor ≤ b.tables.seq)
    (front : t.direct = false → todo <+: pending StoredEvent.cursor b.tables.outbox (tables.offsets t.sub.name)) :
    Lanes { b with tables, saved, queue := { t with todo, refill } :: rest, handled } := by
  have old := l.upto
  have asked := l.asked
  have waiting := l.waiting
  rw [queued] at old asked waiting
  simp only [List.forall_mem_cons] at old asked
  subst idle
  refine ⟨?_,?_,?_,waiting,?_,(fun open_ => nomatch open_),(fun t open_ => nomatch open_)⟩
  · simp only [List.forall_mem_cons,seq]
    exact ⟨upto,old.2⟩
  · simp only [subscriptions]
    exact l.known
  · simp only [List.forall_mem_cons,subscriptions]
    exact asked
  · intro t' first catching
    simp only [List.head?_cons,Option.mem_def,Option.some.injEq] at first
    subst first
    simp only [outbox]
    exact front catching

private theorem advance (l : Lanes b) {t : Task} {rest : List Task} {x : StoredEvent} {todo : List StoredEvent}
    {tables : BusTables} {saved : Option BusTables} {handled : List (String × ℕ)} (queued : b.queue = t :: rest)
    (listed : t.todo = x :: todo) (idle : saved = none) (ordered : b.tables.outbox.Pairwise fun r r' => r.cursor < r'.cursor)
    (outbox : tables.outbox = b.tables.outbox) (seq : tables.seq = b.tables.seq)
    (subscriptions : tables.subscriptions = b.tables.subscriptions) (offset : tables.offsets t.sub.name = x.cursor) :
    Lanes { b with tables, saved, queue := { t with todo } :: rest, handled } := by
  refine l.requeue queued idle outbox seq subscriptions ?_ ?_
  · intro y later
    exact l.upto t (by rw [queued]; exact List.mem_cons_self) y (by rw [listed]; exact List.mem_cons_of_mem _ later)
  · intro catching
    have front := l.front t (by rw [queued]; rfl) catching
    rw [listed] at front
    rw [offset]
    exact Consumption.prefix_after ordered front

private theorem release (l : Lanes b) (idle : b.saved = none) (failed : Bool) : Lanes (b.release failed) := by
  obtain ⟨tables,saved,_,_,_,subs⟩ := release_same failed b
  have fewer : (b.release failed).queue = b.queue.tail := by
    unfold SqliteEventBus.release
    split <;> simp [*]
  refine ⟨?_,?_,?_,?_,?_,?_,?_⟩
  · rw [fewer,tables]
    exact fun t queued => l.upto t (List.mem_of_mem_tail queued)
  · rw [subs,tables]
    exact l.known
  · rw [fewer,tables]
    exact fun t queued => l.asked t (List.mem_of_mem_tail queued)
  · rw [fewer]
    exact fun t queued => l.waiting t (List.mem_of_mem_tail queued)
  · rw [fewer,tables]
    intro t first catching
    rw [l.waiting t (List.mem_of_mem_head? first) catching]
    exact List.nil_prefix
  · rw [saved,idle]
    exact fun open_ => by cases open_
  · rw [saved,idle]
    exact fun t open_ => by cases open_

end Lanes

namespace Delivered

private theorem saved_eq (s : Delivered c b) {event : BusEvent} (undisturbed : Undisturbed b event) (rolls : event.rollsBack)
    {before : BusTables} (open_ : before ∈ b.saved) : before = b.tables := by
  have outbox := undisturbed.1 rolls before open_
  have seq := (s.stored.saved before open_).2 outbox
  have subscriptions := undisturbed.2 rolls before open_
  obtain ⟨offsets,retries,dead,inbox⟩ := s.lanes.saved before open_
  cases before
  cases tables : b.tables
  simp only [tables] at *
  subst outbox seq subscriptions offsets retries dead inbox
  rfl

private theorem head (s : Delivered c b) {event : BusEvent} (inOrder : InOrder c b event) {t : Task} {rest : List Task}
    {x : StoredEvent} {todo : List StoredEvent} (queued : b.queue = t :: rest) (todo_ : t.todo = x :: todo)
    (moves : moved c b event = some (t,x)) (next : b.tables.offsets t.sub.name < x.cursor) :
    Clear StoredEvent.cursor b.tables.outbox (fun r => c.wants t.sub.definition r.envelope)
        (b.tables.offsets t.sub.name) x.cursor ∧
      ∀ r ∈ b.tables.outbox, r.cursor = x.cursor → c.wants t.sub.definition r.envelope →
        c.wants t.sub.definition x.envelope := by
  by_cases direct : t.direct
  · have here := inOrder t x moves direct
    refine ⟨fun r inside after upto wanted => (here r inside after upto wanted).1,?_⟩
    intro r inside same wanted
    exact (here r inside (by omega) (by omega) wanted).2
  · have front := s.lanes.front t (by rw [queued]; rfl) (by simpa using direct)
    rw [todo_] at front
    have listed := (Consumption.mem_of_front front).2
    refine ⟨Consumption.clear_of_front s.stored.ordered front,?_⟩
    intro r inside same wanted
    rw [Consumption.eq_of_cursor s.stored.ordered listed inside same.symm]
    exact wanted

private theorem subscribe (s : Delivered c b) (name : String) (options : Options) :
    Consumers c (b.subscribe name options).tables (b.subscribe name options).handled ∧ Lanes (b.subscribe name options) := by
  unfold SqliteEventBus.subscribe
  split
  · exact ⟨s.consumers,s.lanes⟩
  split
  · exact ⟨s.consumers,s.lanes⟩
  · rename_i _ unchanged
    have lookup := Consumers.lookup_subscribe b.tables name
    have kept : ∀ n d, b.tables.subscriptions.lookup n = some d →
        (b.tables.subscribe name options.definition).subscriptions.lookup n = some d := by
      intro n d known
      rw [lookup,known,Option.some_or]
    refine ⟨s.consumers.subscribe name options.definition,?_⟩
    obtain ⟨outbox,seq,offsets,others⟩ := Consumers.subscribe_same b.tables name options.definition
    refine s.lanes.frame (Nat.le_of_eq seq.symm) (by simp [outbox]) offsets rfl rfl kept ?_ others
    simp only [List.forall_mem_append,List.forall_mem_singleton]
    refine ⟨fun sub listed => kept _ _ (s.lanes.known sub listed),?_⟩
    rw [lookup,if_pos rfl]
    cases old : b.tables.subscriptions.lookup name with
    | none => rfl
    | some d =>
      rw [old] at unchanged
      simpa using unchanged

private theorem publish (s : Delivered c b) (input : EventEnvelope) :
    Consumers c (b.publish c input).tables (b.publish c input).handled ∧ Lanes (b.publish c input) := by
  unfold SqliteEventBus.publish
  cases normal : c.normalize input with
  | error error => exact ⟨s.consumers,s.lanes⟩
  | ok envelope =>
    dsimp only
    cases old : b.tables.outbox.find? fun r => r.envelope.id = envelope.id with
    | some r =>
      simp only [Option.isSome_some,if_true]
      exact ⟨s.consumers,s.lanes.frame (Nat.le_refl _) (List.prefix_refl _) rfl rfl rfl (fun _ _ => id) s.lanes.known
        ⟨rfl,rfl,rfl⟩⟩
    | none =>
      simp only [Option.isSome_none,Bool.false_eq_true,if_false,Option.map_none,Option.getD_none]
      exact ⟨s.consumers.insert (c.normalize_idem normal),s.lanes.frame (Nat.le_succ _) (List.prefix_append _ _) rfl rfl rfl
        (fun _ _ => id) s.lanes.known ⟨rfl,rfl,rfl⟩⟩

private theorem turn (s : Delivered c b) (i : ℕ) :
    Consumers c (b.turn i).tables (b.turn i).handled ∧ Lanes (b.turn i) := by
  unfold SqliteEventBus.turn
  split
  · rename_i stored last here
    have known : ∀ x ∈ stored, x.cursor ≤ b.tables.seq := by
      intro x given
      obtain ⟨r,inside,same,_⟩ := s.stored.issued x (s.stored.pending i _ here x given)
      rw [← same]
      exact s.stored.bounded r inside
    split
    · rename_i sub next
      have listed := List.mem_of_find?_eq_some next
      have empty : stored.isSome = false → stored.toList = [] := by
        cases stored <;> simp
      refine ⟨s.consumers,?_,s.lanes.known,?_,?_,?_,?_,s.lanes.saved⟩
      · simp only [List.forall_mem_append,List.forall_mem_singleton]
        exact ⟨s.lanes.upto,by simpa using known⟩
      · simp only [List.forall_mem_append,List.forall_mem_singleton]
        exact ⟨s.lanes.asked,s.lanes.known sub listed⟩
      · have waiting := s.lanes.waiting
        cases queued : b.queue with
        | nil => simp
        | cons t rest =>
          rw [queued] at waiting
          simp only [List.cons_append,List.tail_cons,List.forall_mem_append,List.forall_mem_singleton] at waiting ⊢
          exact ⟨waiting,empty⟩
      · have front := s.lanes.front
        cases queued : b.queue with
        | nil =>
          intro t first catching
          obtain rfl := Option.some.inj first
          exact empty catching ▸ List.nil_prefix
        | cons t rest =>
          rw [queued] at front
          exact front
      · intro open_
        obtain ⟨t,rest,x,todo,queued,found⟩ := s.lanes.handling open_
        exact ⟨t,rest ++ [_],x,todo,by rw [queued]; rfl,found⟩
    · exact ⟨s.consumers,s.lanes.frame (Nat.le_refl _) (List.prefix_refl _) rfl rfl rfl (fun _ _ => id) s.lanes.known
        ⟨rfl,rfl,rfl⟩⟩
  · exact ⟨s.consumers,s.lanes⟩

/-- No stored event fails its schema, so a `deliver` reads the rows after the offset as they stand. -/
private theorem replay (s : Delivered c b) (offset : ℕ) :
    SqliteEventBus.replay c b.tables offset <+: pending StoredEvent.cursor b.tables.outbox offset ∧
      ∀ x ∈ SqliteEventBus.replay c b.tables offset, x.cursor ≤ b.tables.seq := by
  have whole : ∀ rows : List StoredEvent, (∀ r ∈ rows, c.normalize r.envelope = .ok r.envelope) →
      (rows.filterMap fun r => (c.normalize r.envelope).toOption.map fun e => (⟨r.cursor,e⟩ : StoredEvent)) = rows := by
    intro rows
    induction rows with
    | nil => simp
    | cons r rows ih =>
      intro normal
      simp only [List.forall_mem_cons] at normal
      rw [List.filterMap_cons_some (by rw [normal.1]; rfl),ih normal.2]
  have inside : ∀ n, ∀ r ∈ (pending StoredEvent.cursor b.tables.outbox offset).take n, r ∈ b.tables.outbox :=
    fun n r taken => List.mem_of_mem_filter (List.mem_of_mem_take taken)
  have rows : SqliteEventBus.replay c b.tables offset =
      (pending StoredEvent.cursor b.tables.outbox offset).take (max 1 (min c.batch 1000)).toNat :=
    whole _ fun r taken => s.consumers.normal r (inside _ r taken)
  rw [rows]
  exact ⟨List.take_prefix _ _,fun r taken => s.stored.bounded r (inside _ r taken)⟩

private theorem work (s : Delivered c b) (inOrder : InOrder c b .work) :
    Consumers c (b.work c).tables (b.work c).handled ∧ Lanes (b.work c) := by
  unfold SqliteEventBus.work
  split
  · rename_i t rest idle queued
    have asked := s.lanes.asked t (by rw [queued]; exact List.mem_cons_self)
    dsimp only
    split
    · rename_i x todo listed
      have moves (next : b.tables.offsets t.sub.name < x.cursor) (skipped : c.wants t.sub.definition x.envelope = false) :
          moved c b .work = some (t,x) := by
        simp [moved,queued,listed,idle,next,skipped]
      have upto := s.lanes.upto t (by rw [queued]; exact List.mem_cons_self)
      simp only [listed,List.forall_mem_cons] at upto
      split
      · rename_i taken
        refine ⟨s.consumers,s.lanes.requeue queued idle rfl rfl rfl upto.2 ?_⟩
        intro catching
        have front := s.lanes.front t (by rw [queued]; rfl) catching
        rw [listed] at front
        have ahead := (Consumption.mem_of_front front).1
        omega
      · rename_i ahead
        split
        · rename_i wanted
          refine ⟨s.consumers,s.lanes.upto,s.lanes.known,s.lanes.asked,s.lanes.waiting,s.lanes.front,?_,?_⟩
          · exact fun _ => ⟨t,rest,x,todo,queued,listed,by simpa using ahead⟩
          · intro before open_
            cases open_
            exact ⟨rfl,rfl,rfl,rfl⟩
        · rename_i unwanted
          have next : b.tables.offsets t.sub.name < x.cursor := by omega
          obtain ⟨clear,agrees⟩ := s.head inOrder queued listed (moves next (by simpa using unwanted)) next
          have done := consumed_skip (s.consumers.consumed _ _ asked) next clear
            fun r inside same wanted => unwanted (agrees r inside same wanted)
          refine ⟨?_,s.lanes.advance queued listed idle s.stored.ordered rfl rfl rfl ?_⟩
          · refine s.consumers.move rfl rfl rfl upto.1 (offsets_acknowledge _ _ · _) asked done ?_ (fun _ => id) fun _ _ => rfl
            exact fun m other => Function.update_of_ne other _ _
          · rw [offsets_acknowledge,if_pos rfl]
    · rename_i listed
      split
      · exact ⟨by rw [(release_same false b).1,(release_same false b).2.2.2.2.1]; exact s.consumers,s.lanes.release idle false⟩
      · obtain ⟨read,inside⟩ := s.replay (b.tables.offsets t.sub.name)
        exact ⟨s.consumers,s.lanes.requeue queued idle rfl rfl rfl inside fun _ => read⟩
  · exact ⟨s.consumers,s.lanes⟩

private theorem settle (s : Delivered c b) {answer : Except String Unit} (undisturbed : Undisturbed b (.settle answer))
    (inOrder : InOrder c b (.settle answer)) :
    Consumers c (b.settle c answer).tables (b.settle c answer).handled ∧ Lanes (b.settle c answer) := by
  unfold SqliteEventBus.settle
  split
  · rename_i before t rest open_ queued
    obtain ⟨t',rest',x',todo',queued',listed',next⟩ := s.lanes.handling (by rw [open_]; rfl)
    rw [queued,List.cons.injEq] at queued'
    obtain ⟨rfl,rfl⟩ := queued'
    split
    · rename_i none_
      rw [none_] at listed'
      cases listed'
    · rename_i x todo listed
      rw [listed,List.cons.injEq] at listed'
      obtain ⟨rfl,rfl⟩ := listed'
      have asked := s.lanes.asked t (by rw [queued]; exact List.mem_cons_self)
      have upto := s.lanes.upto t (by rw [queued]; exact List.mem_cons_self)
      simp only [listed,List.forall_mem_cons] at upto
      have was := s.consumers.consumed _ _ asked
      cases answer with
      | ok _ =>
        have moves : moved c b (.settle (.ok ())) = some (t,x) := by
          simp [moved,queued,listed,open_]
        obtain ⟨clear,_⟩ := s.head inOrder queued listed moves next
        refine ⟨?_,s.lanes.advance queued listed rfl s.stored.ordered rfl rfl rfl ?_⟩
        · refine s.consumers.move rfl rfl rfl upto.1 (offsets_acknowledge _ _ · _) asked (consumed_handle was next clear) ?_
            (fun _ => id) ?_
          · intro m other
            exact Function.update_of_ne other _ _
          · intro m other
            rw [handledBy_append,if_neg other.symm]
        · rw [offsets_acknowledge,if_pos rfl]
      | error error =>
        have same := s.saved_eq undisturbed rfl open_
        subst same
        dsimp only
        split
        · rename_i enough
          have moves : moved c b (.settle (.error error)) = some (t,x) := by
            simpa [moved,queued,listed,open_] using enough
          obtain ⟨clear,_⟩ := s.head inOrder queued listed moves next
          have offset (m : String) : ((b.tables.setRetry t.sub.name x.cursor
              (some (b.tables.attempts t.sub.name x.cursor + 1,error))).bury t.sub.name x error).offsets m =
                if m = t.sub.name then x.cursor else b.tables.offsets m :=
            offsets_bury _ _ _ _ _
          refine ⟨?_,s.lanes.advance queued listed rfl s.stored.ordered rfl rfl rfl ?_⟩
          · refine s.consumers.move rfl rfl rfl upto.1 offset asked (consumed_bury was next clear enough error) ?_ ?_ fun _ _ => rfl
            · intro m other
              exact Function.update_of_ne other _ _
            · exact (deadLetters_bury _ _ _ _).1
          · rw [offset,if_pos rfl]
        · have failed : Consumers c (b.tables.setRetry t.sub.name x.cursor
              (some (b.tables.attempts t.sub.name x.cursor + 1,error))) b.handled := by
            refine s.consumers.one rfl rfl rfl (s.consumers.reach _) asked (consumed_retry was next _) (fun _ _ => rfl) ?_
              (fun _ => id) fun _ _ => rfl
            intro m other
            exact Function.update_of_ne other _ _
          have kept : Lanes { b with
              tables := b.tables.setRetry t.sub.name x.cursor (some (b.tables.attempts t.sub.name x.cursor + 1,error))
              saved := none
              queue := t :: rest } := by
            refine s.lanes.requeue queued rfl rfl rfl rfl ?_ ?_
            · exact s.lanes.upto t (by rw [queued]; exact List.mem_cons_self)
            · exact s.lanes.front t (by rw [queued]; rfl)
          rw [(release_same true _).1,(release_same true _).2.2.2.2.1]
          rw [← queued] at kept
          exact ⟨failed,kept.release rfl true⟩
  · exact ⟨s.consumers,s.lanes⟩

theorem step (s : Delivered c b) (event : BusEvent) (undisturbed : Undisturbed b event) (inOrder : InOrder c b event) :
    Delivered c (b.step c event) := by
  have both : Consumers c (b.step c event).tables (b.step c event).handled ∧ Lanes (b.step c event) := by
    cases event with
    | subscribe name options => exact s.subscribe name options
    | unsubscribe name =>
      refine ⟨s.consumers,s.lanes.frame (Nat.le_refl _) (List.prefix_refl _) rfl rfl rfl (fun _ _ => id) ?_ ⟨rfl,rfl,rfl⟩⟩
      exact fun sub listed => s.lanes.known sub (List.mem_of_mem_filter listed)
    | publish input => exact s.publish input
    | deliver =>
      exact ⟨s.consumers,s.lanes.frame (Nat.le_refl _) (List.prefix_refl _) rfl rfl rfl (fun _ _ => id) s.lanes.known
        ⟨rfl,rfl,rfl⟩⟩
    | turn i => exact s.turn i
    | work => exact s.work inOrder
    | settle answer => exact s.settle undisturbed inOrder
    | crash =>
      have kept : b.saved.getD b.tables = b.tables := by
        cases open_ : b.saved with
        | none => rfl
        | some before => exact s.saved_eq undisturbed rfl open_
      refine ⟨?_,?_⟩
      · simp only [SqliteEventBus.step,kept]
        exact s.consumers
      · constructor <;> simp [SqliteEventBus.step]
  exact ⟨s.stored.step event undisturbed.1,both.1,both.2⟩

end Delivered

end Steps

end RatifyOs.Autonomy
