import RatifyOs.Autonomy.Events
import RatifyOs.Data.Consumption
import RatifyOs.Data.Run

/-! The outbox over whole runs: what `publish` has answered stays there as long as no
rollback takes back rows that another call wrote into the open transaction. -/
namespace RatifyOs.Autonomy
open Data Data.Run SqliteEventBus

/-- The step takes the open transaction back. -/
def BusEvent.rollsBack : BusEvent → Bool
  | .settle (.error _) => true
  | .crash => true
  | _ => false

/-- No event was published in a transaction that is taken back. -/
def Lossless (b : SqliteEventBus) (event : BusEvent) : Prop :=
  event.rollsBack → ∀ before ∈ b.saved, before.outbox = b.tables.outbox

structure Stored (b : SqliteEventBus) : Prop where
  ids : (b.tables.outbox.map fun r => r.envelope.id).Nodup
  ordered : b.tables.outbox.Pairwise fun r r' => r.cursor < r'.cursor
  bounded : ∀ r ∈ b.tables.outbox, r.cursor ≤ b.tables.seq
  issued : ∀ x ∈ b.issued, ∃ r ∈ b.tables.outbox, r.cursor = x.cursor ∧ r.envelope.id = x.envelope.id
  pending : ∀ i p, b.passes i = some p → ∀ x ∈ p.stored, x ∈ b.issued
  returned : ∀ x ∈ b.returned, x ∈ b.issued
  saved : ∀ t ∈ b.saved, t.outbox.length ≤ b.tables.outbox.length ∧ (t.outbox = b.tables.outbox → t.seq = b.tables.seq)

theorem stored_empty : Stored .empty := by
  constructor <;> simp [SqliteEventBus.empty,BusTables.empty]

section Steps
variable {c : BusConfig} {b : SqliteEventBus}

private theorem Stored.frame {b' : SqliteEventBus} (s : Stored b) (outbox : b'.tables.outbox = b.tables.outbox)
    (seq : b'.tables.seq = b.tables.seq) (issued : b'.issued = b.issued) (returned : ∀ x ∈ b'.returned, x ∈ b.issued)
    (passes : ∀ i p, b'.passes i = some p → ∀ x ∈ p.stored, x ∈ b.issued)
    (saved : ∀ t ∈ b'.saved, t ∈ b.saved ∨ t = b.tables) : Stored b' := by
  refine ⟨?_,?_,?_,?_,?_,?_,?_⟩
  · rw [outbox]; exact s.ids
  · rw [outbox]; exact s.ordered
  · rw [outbox,seq]; exact s.bounded
  · rw [issued,outbox]; exact s.issued
  · rw [issued]; exact passes
  · rw [issued]; exact returned
  · rw [outbox,seq]
    intro t open_
    obtain old | rfl := saved t open_
    · exact s.saved t old
    · exact ⟨Nat.le_refl _,fun _ => rfl⟩

theorem Stored.publish (s : Stored b) (input : EventEnvelope) : Stored (b.publish c input) := by
  unfold SqliteEventBus.publish
  cases c.normalize input with
  | error error => exact s
  | ok envelope =>
    dsimp only
    have kept (x : StoredEvent) : ∀ i p, Function.update b.passes b.count (some ⟨some x,0,false⟩) i = some p →
        ∀ y ∈ p.stored, y ∈ b.issued ++ [x] := by
      intro i p found y stored
      by_cases here : i = b.count
      · subst here
        rw [Function.update_self] at found
        cases found
        cases stored
        simp
      · rw [Function.update_of_ne here] at found
        exact List.mem_append_left _ (s.pending i p found y stored)
    cases old : b.tables.outbox.find? fun r => r.envelope.id = envelope.id with
    | some r =>
      have inside := List.mem_of_find?_eq_some old
      have same : r.envelope.id = envelope.id := by simpa using List.find?_some old
      simp only [Option.isSome_some,if_true,Option.map_some,Option.getD_some]
      refine ⟨s.ids,s.ordered,s.bounded,?_,kept _,fun x was => List.mem_append_left _ (s.returned x was),s.saved⟩
      simp only [List.forall_mem_append,List.forall_mem_singleton]
      exact ⟨s.issued,r,inside,rfl,same⟩
    | none =>
      have fresh : ∀ r ∈ b.tables.outbox, r.envelope.id ≠ envelope.id := by
        intro r inside
        simpa using List.find?_eq_none.mp old r inside
      simp only [Option.isSome_none,Bool.false_eq_true,if_false,Option.map_none,Option.getD_none]
      refine ⟨?_,?_,?_,?_,kept _,fun x was => List.mem_append_left _ (s.returned x was),?_⟩
      · simp only [List.map_append,List.nodup_append]
        refine ⟨s.ids,by simp,?_⟩
        intro id inside id' single same
        obtain ⟨r,is_row,rfl⟩ := List.mem_map.mp inside
        simp only [List.map_cons,List.map_nil,List.mem_singleton] at single
        exact fresh r is_row (same.trans single)
      · rw [List.pairwise_append]
        refine ⟨s.ordered,List.pairwise_singleton _ _,?_⟩
        intro r inside r' single
        have := s.bounded r inside
        rw [List.mem_singleton.mp single]
        simp only
        omega
      · simp only [List.forall_mem_append,List.forall_mem_singleton]
        refine ⟨fun r inside => ?_,Nat.le_refl _⟩
        have := s.bounded r inside
        omega
      · simp only [List.forall_mem_append,List.forall_mem_singleton]
        refine ⟨fun x was => ?_,_,List.mem_append_right _ List.mem_cons_self,rfl,rfl⟩
        obtain ⟨r,inside,same⟩ := s.issued x was
        exact ⟨r,List.mem_append_left _ inside,same⟩
      · intro t open_
        obtain ⟨shorter,_⟩ := s.saved t open_
        refine ⟨by simp only [List.length_append,List.length_singleton]; omega,fun same => ?_⟩
        rw [same] at shorter
        simp only [List.length_append,List.length_singleton] at shorter
        omega

theorem passes_update {i j : ℕ} {p q : Pass} {passes : ℕ → Option Pass} {old : Option Pass}
    (found : Function.update passes i old j = some p) (same : ∀ p', old = some p' → passes i = some q ∧ p'.stored = q.stored) :
    ∃ q, passes j = some q ∧ p.stored = q.stored := by
  by_cases here : j = i
  · subst here
    rw [Function.update_self] at found
    exact ⟨q,same p found⟩
  · rw [Function.update_of_ne here] at found
    exact ⟨p,found,rfl⟩

private theorem passes_release {failed : Bool} {i : ℕ} {p : Pass} (found : (b.release failed).passes i = some p) :
    ∃ q, b.passes i = some q ∧ p.stored = q.stored := by
  unfold release at found
  split at found
  · exact ⟨p,found,rfl⟩
  · rename_i t rest _
    by_cases here : i = t.pass
    · subst here
      simp only [Function.update_self] at found
      obtain ⟨q,was,became⟩ := Option.bind_eq_some_iff.mp found
      split at became
      · cases became
      · cases became
        exact ⟨q,was,rfl⟩
    · simp only [Function.update_of_ne here] at found
      exact ⟨p,found,rfl⟩

theorem release_same (failed : Bool) (b : SqliteEventBus) : (b.release failed).tables = b.tables ∧
    (b.release failed).saved = b.saved ∧ (b.release failed).issued = b.issued ∧
    (b.release failed).returned = b.returned ∧ (b.release failed).handled = b.handled ∧
    (b.release failed).subs = b.subs := by
  unfold release
  split <;> simp

private theorem Stored.release (s : Stored b) (failed : Bool) : Stored (b.release failed) := by
  obtain ⟨tables,saved,issued,returned,_⟩ := release_same failed b
  refine s.frame (by rw [tables]) (by rw [tables]) issued (by rw [returned]; exact s.returned) ?_ ?_
  · intro i p found x stored
    obtain ⟨q,was,same⟩ := passes_release found
    exact s.pending i q was x (same ▸ stored)
  · rw [saved]
    exact fun t open_ => .inl open_

private theorem Stored.turn (s : Stored b) (i : ℕ) : Stored (b.turn i) := by
  unfold SqliteEventBus.turn
  split
  · rename_i stored last here
    have known : ∀ x ∈ stored, x ∈ b.issued := s.pending i _ here
    split
    · rename_i sub next
      refine s.frame rfl rfl rfl s.returned ?_ fun t open_ => .inl open_
      intro j p found x given
      have kept : ∀ p', some (⟨stored,sub.serial,true⟩ : Pass) = some p' →
          b.passes i = some ⟨stored,last,false⟩ ∧ p'.stored = stored := by
        intro p' became
        cases became
        exact ⟨here,rfl⟩
      obtain ⟨q,was,same⟩ := passes_update found kept
      exact s.pending j q was x (same ▸ given)
    · refine s.frame rfl rfl rfl ?_ ?_ fun t open_ => .inl open_
      · simp only [List.forall_mem_append]
        refine ⟨s.returned,fun x given => known x ?_⟩
        simpa using given
      · intro j p found x given
        obtain ⟨q,was,same⟩ := passes_update (q := p) found (fun _ became => by cases became)
        exact s.pending j q was x (same ▸ given)
  · exact s

private theorem Stored.work (s : Stored b) : Stored (b.work c) := by
  unfold SqliteEventBus.work
  split
  · rename_i t rest idle queued
    have same (tables : BusTables) (queue : List Task) (outbox : tables.outbox = b.tables.outbox)
        (seq : tables.seq = b.tables.seq) : Stored { b with tables, queue } :=
      s.frame outbox seq rfl s.returned s.pending fun t open_ => .inl open_
    dsimp only
    split
    · split
      · exact same b.tables _ rfl rfl
      · split
        · refine s.frame rfl rfl rfl s.returned s.pending fun t open_ => .inr ?_
          cases open_
          rfl
        · exact same _ _ rfl rfl
    · split
      · exact s.release false
      · exact same b.tables _ rfl rfl
  · exact s

private theorem Stored.settle (s : Stored b) {answer : Except String Unit} (lossless : Lossless b (.settle answer)) :
    Stored (b.settle c answer) := by
  unfold SqliteEventBus.settle
  split
  · rename_i before t rest open_ queued
    split
    · exact s
    · cases answer with
      | ok _ => exact s.frame rfl rfl rfl s.returned s.pending fun t none_ => by cases none_
      | error error =>
        have outbox := lossless rfl before open_
        have seq := (s.saved before open_).2 outbox
        have back (tables : BusTables) (queue : List Task) (same : tables.outbox = before.outbox)
            (same' : tables.seq = before.seq) : Stored { b with tables, saved := none, queue } :=
          s.frame (same.trans outbox) (same'.trans seq) rfl s.returned s.pending fun t none_ => by cases none_
        dsimp only
        split
        · exact back _ _ rfl rfl
        · exact (back (before.setRetry _ _ _) b.queue rfl rfl).release true
  · exact s

theorem Stored.step (s : Stored b) (event : BusEvent) (lossless : Lossless b event) : Stored (b.step c event) := by
  cases event with
  | subscribe name options =>
    change Stored (b.subscribe name options)
    unfold SqliteEventBus.subscribe
    split
    · exact s
    split
    · exact s
    · refine s.frame ?_ ?_ rfl s.returned s.pending fun t open_ => .inl open_ <;>
        simp only [BusTables.subscribe] <;> split <;> rfl
  | unsubscribe name => exact s.frame rfl rfl rfl s.returned s.pending fun t open_ => .inl open_
  | publish input => exact s.publish input
  | deliver =>
    refine s.frame rfl rfl rfl s.returned ?_ fun t open_ => .inl open_
    intro j p found x given
    by_cases here : j = b.count
    · simp only [SqliteEventBus.step,SqliteEventBus.deliver,here,Function.update_self] at found
      cases found
      cases given
    · simp only [SqliteEventBus.step,SqliteEventBus.deliver,Function.update_of_ne here] at found
      exact s.pending j p found x given
  | turn i => exact s.turn i
  | work => exact s.work
  | settle answer => exact s.settle lossless
  | crash =>
    have kept : (b.saved.getD b.tables).outbox = b.tables.outbox ∧ (b.saved.getD b.tables).seq = b.tables.seq := by
      cases open_ : b.saved with
      | none => exact ⟨rfl,rfl⟩
      | some before =>
        have outbox := lossless rfl before open_
        exact ⟨outbox,(s.saved before open_).2 outbox⟩
    exact s.frame kept.1 kept.2 rfl s.returned (fun _ _ found => by cases found) fun t none_ => by cases none_

private theorem issued_grows (event : BusEvent) : b.issued ⊆ (b.step c event).issued := by
  have released (failed : Bool) (b : SqliteEventBus) : (b.release failed).issued = b.issued := (release_same failed b).2.2.1
  intro x was
  cases event with
  | publish input =>
    simp only [SqliteEventBus.step,SqliteEventBus.publish]
    split
    · exact was
    · exact List.mem_append_left _ was
  | subscribe name options =>
    simp only [SqliteEventBus.step,SqliteEventBus.subscribe]
    split_ifs <;> exact was
  | turn i =>
    simp only [SqliteEventBus.step,SqliteEventBus.turn]
    split
    · split <;> exact was
    · exact was
  | work =>
    simp only [SqliteEventBus.step,SqliteEventBus.work]
    split
    · split
      · split_ifs <;> exact was
      · split_ifs
        · rw [released]
          exact was
        · exact was
    · exact was
  | settle answer =>
    simp only [SqliteEventBus.step,SqliteEventBus.settle]
    split
    · split
      · exact was
      · split
        · exact was
        · split_ifs
          · exact was
          · rw [released]
            exact was
    · exact was
  | unsubscribe name => exact was
  | deliver => exact was
  | crash => exact was

end Steps

section Runs
variable (c : BusConfig)

theorem published_durable (events more : List BusEvent)
    (lossless : Meets (SqliteEventBus.step c) Lossless .empty (events ++ more)) :
    let b := run (SqliteEventBus.step c) .empty events
    let later := run (SqliteEventBus.step c) b more
    (∀ x ∈ b.returned, ∃ r ∈ later.tables.outbox, r.cursor = x.cursor ∧ r.envelope.id = x.envelope.id) ∧
    ∀ x ∈ later.issued, ∀ y ∈ later.issued, x.cursor = y.cursor → x.envelope.id = y.envelope.id := by
  intro b later
  obtain ⟨first,second⟩ := lossless.of_append
  have kept : ∀ b event, Lossless b event → Stored b → Stored (b.step c event) := fun b event holds s => s.step event holds
  have s : Stored b := invariant kept stored_empty first
  have s' : Stored later := invariant kept s second
  have grown : b.issued ⊆ later.issued := by
    refine invariant (I := fun b' => b.issued ⊆ b'.issued) ?_ (List.Subset.refl _) second
    exact fun b' event _ before => List.Subset.trans before (issued_grows event)
  refine ⟨fun x answered => s'.issued x (grown (s.returned x answered)),?_⟩
  intro x is_issued y is_issued' same
  obtain ⟨r,inside,cursor,id⟩ := s'.issued x is_issued
  obtain ⟨r',inside',cursor',id'⟩ := s'.issued y is_issued'
  obtain rfl := Consumption.eq_of_cursor s'.ordered inside inside' (by omega)
  rw [← id,id']

end Runs

section Rollback

def config : BusConfig := ⟨some 5,none,fun _ => none,fun _ _ => true⟩

def event (id : String) : EventEnvelope := ⟨id,"x",1,"test",id,none,"",.null⟩

/-- The second event is published while the handler has the first one, and the handler throws. -/
private def overlapped : List BusEvent := [.subscribe "a" ⟨none,none,none⟩,.publish (event "first"),.turn 0,.work,
  .publish (event "second"),.settle (.error "busy"),.turn 0,.turn 1,.work,.settle (.ok ()),.work,.turn 1,
  .publish (event "third")]

private def named (x : StoredEvent) : ℕ × String := (x.cursor,x.envelope.id)

theorem published_lost :
    let b := run (SqliteEventBus.step config) .empty overlapped
    b.returned.map named = [(1,"first"),(2,"second")] ∧ b.tables.outbox.map named = [(1,"first"),(2,"third")] ∧
      b.issued.map named = [(1,"first"),(2,"second"),(2,"third")] := by
  decide +kernel

/-- Here the second event waits for the rollback. -/
private def apart : List BusEvent := [.subscribe "a" ⟨none,none,none⟩,.publish (event "first"),.turn 0,.work,
  .settle (.error "busy"),.turn 0,.publish (event "second"),.turn 1,.work,.settle (.ok ()),.work,.turn 1]

theorem published_durable_apart :
    (run (SqliteEventBus.step config) .empty apart).returned.length = 2 ∧
    ∀ x ∈ (run (SqliteEventBus.step config) .empty apart).returned,
      ∃ r ∈ (run (SqliteEventBus.step config) .empty apart).tables.outbox,
        r.cursor = x.cursor ∧ r.envelope.id = x.envelope.id := by
  have lossless : Meets (SqliteEventBus.step config) Lossless .empty (apart ++ []) := by
    have quiet {b : SqliteEventBus} {event : BusEvent} (quiet : event.rollsBack = false) : Lossless b event := by
      intro rolls
      rw [quiet] at rolls
      cases rolls
    refine ⟨quiet rfl,quiet rfl,quiet rfl,quiet rfl,?_,quiet rfl,quiet rfl,quiet rfl,quiet rfl,quiet rfl,quiet rfl,
      quiet rfl,trivial⟩
    intro _ before open_
    cases open_
    rfl
  exact ⟨by decide +kernel,(published_durable config apart [] lossless).1⟩

end Rollback

end RatifyOs.Autonomy
