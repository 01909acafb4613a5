import RatifyOs.Autonomy.Scheduler

/-! One call of `tick` over rows of which some cannot be processed. The loop ends at the
first of these. -/
namespace RatifyOs.Autonomy.Schedules
open Data Data.Result JobQueue

section Unblocked
variable (accept : String → Json → Except String Text) (draw : String → String × ℤ)

/-- The type of the row is registered, and its payload is valid. -/
def Acceptable (r : ScheduleRow) : Prop := ∃ json, accept r.type r.payload = .ok json

/-- Nothing in the processing of the row throws. -/
structure Passes (q : JobQueue) (r : ScheduleRow) : Prop where
  agrees : ∃ json, accept r.type r.payload = .ok json ∧
    ∀ old, q.keyed (occurrenceKey r.id r.nextFire) = some old → old.type = r.type ∧ old.payloadJson = json
  clock : 0 ≤ (draw r.id).2 ∧ (draw r.id).2 ≤ maxSafe
  keyText : (codeUnits (occurrenceKey r.id r.nextFire)).length ≤ maxText
  recurs : (∃ time, r.schedule = .at_ time) ∨ ∃ next, nextScheduleTime r.schedule (.finite r.nextFire) = .ok next

/-- The row after its occurrence was enqueued. -/
def Advanced (r r' : ScheduleRow) : Prop :=
  ((∃ time, r.schedule = .at_ time) ∧ r' = { r with enabled := false }) ∨
  (∀ time, r.schedule ≠ .at_ time) ∧ nextScheduleTime r.schedule (.finite r.nextFire) = .ok r'.nextFire ∧
    r' = { r with nextFire := r'.nextFire }

/-- The occurrence of the row is a job, and the row has gone on. -/
structure Done (s : Stores) (r : ScheduleRow) : Prop where
  job : ∃ j, s.queue.keyed (occurrenceKey r.id r.nextFire) = some j ∧ j.type = r.type ∧
    accept r.type r.payload = .ok j.payloadJson
  row : ∃ r', s.rows.find? r.id = some r' ∧ Advanced r r'

/-- Random ids are texts, and new. -/
structure Fresh (q : JobQueue) (rows : List ScheduleRow) : Prop where
  text : ∀ r ∈ rows, (draw r.id).1 ≠ "" ∧ (codeUnits (draw r.id).1).length ≤ maxText
  new : ∀ r ∈ rows, q.jobs.find? (draw r.id).1 = none
  apart : (rows.map fun r => (draw r.id).1).Nodup

/-- What processing a row leaves alone. -/
structure Apart (r : ScheduleRow) (s s' : Stores) : Prop where
  rows : ∀ id ≠ r.id, s'.rows.find? id = s.rows.find? id
  keyed : ∀ key ≠ occurrenceKey r.id r.nextFire, s'.queue.keyed key = s.queue.keyed key
  jobs : ∀ id ≠ (draw r.id).1, s'.queue.jobs.find? id = s.queue.jobs.find? id

theorem advance_row {r : ScheduleRow} {rows rows' : Schedules} (done : rows.advance r = .ok rows')
    (stored : rows.find? r.id = some r) : ∃ r', rows'.find? r.id = some r' ∧ Advanced r r' := by
  obtain ⟨once,rfl⟩ | ⟨again,next,found,rfl⟩ := advance_eq_ok.mp done
  · exact ⟨_,by rw [find?_update,if_pos rfl,stored]; rfl,.inl ⟨once,rfl⟩⟩
  · exact ⟨_,by rw [find?_update,if_pos rfl,stored]; rfl,.inr ⟨again,found,rfl⟩⟩

theorem advance_ok_iff (r : ScheduleRow) (rows : Schedules) : (∃ rows', rows.advance r = .ok rows') ↔
    (∃ time, r.schedule = .at_ time) ∨ ∃ next, nextScheduleTime r.schedule (.finite r.nextFire) = .ok next := by
  constructor
  · intro ⟨rows',done⟩
    obtain ⟨once,_⟩ | ⟨_,next,found,_⟩ := advance_eq_ok.mp done
    · exact .inl once
    · exact .inr ⟨next,found⟩
  · intro recurs
    by_cases once : ∃ time, r.schedule = .at_ time
    · exact ⟨_,advance_eq_ok.mpr (.inl ⟨once,rfl⟩)⟩
    · obtain ⟨next,found⟩ := recurs.resolve_left once
      exact ⟨_,advance_eq_ok.mpr (.inr ⟨not_exists.mp once,next,found,rfl⟩)⟩

/-- A row that is due has not gone on. -/
theorem not_advanced {r : ScheduleRow} (enabled : r.enabled = true) : ¬Advanced r r := by
  intro advanced
  obtain ⟨_,same⟩ | ⟨_,next,_⟩ := advanced
  · rw [same] at enabled
    cases enabled
  · obtain ⟨a,safe,_,next⟩ := next_of_ok next
    have future := next.future
    rw [safeInteger_intCast safe] at future
    omega

theorem enqueue_apart {r : ScheduleRow} {s : Stores} {j : JobRow} {queue : JobQueue}
    (done : s.queue.enqueue accept (occurrence r) (draw r.id).1 (draw r.id).2 = .ok (j,queue)) :
    Apart draw r s { s with queue } := by
  obtain ⟨_,_,under,rfl | ⟨_,rows,id⟩⟩ := enqueue_under rfl done
  · exact ⟨fun _ _ => rfl,fun _ _ => rfl,fun _ _ => rfl⟩
  · refine ⟨fun _ _ => rfl,fun key other => ?_,fun id' other => ?_⟩
    · rw [keyed_append rows,key_of_keyed under,if_neg (by simpa using other.symm),Option.or_none]
    · have named : j.id ≠ id' := fun same => other (same.symm.trans id)
      simp [Table.find?,rows,named]

variable {accept draw}

theorem Apart.passes {r x : ScheduleRow} {s s' : Stores} (apart : Apart draw r s s') (other : x.id ≠ r.id) :
    Passes accept draw s'.queue x ↔ Passes accept draw s.queue x := by
  have keys : occurrenceKey x.id x.nextFire ≠ occurrenceKey r.id r.nextFire := fun same => other (occurrenceKey_inj same).1
  have same := apart.keyed _ keys
  constructor
  · intro passes
    exact ⟨same ▸ passes.agrees,passes.clock,passes.keyText,passes.recurs⟩
  · intro passes
    exact ⟨same.symm ▸ passes.agrees,passes.clock,passes.keyText,passes.recurs⟩

theorem Apart.done {r x : ScheduleRow} {s s' : Stores} (apart : Apart draw r s s') (other : x.id ≠ r.id)
    (done : Done accept s x) : Done accept s' x := by
  have keys : occurrenceKey x.id x.nextFire ≠ occurrenceKey r.id r.nextFire := fun same => other (occurrenceKey_inj same).1
  refine ⟨?_,?_⟩
  · rw [apart.keyed _ keys]
    exact done.job
  · rw [apart.rows _ other]
    exact done.row

theorem Fresh.rest {q q' : JobQueue} {r : ScheduleRow} {rest : List ScheduleRow} (fresh : Fresh draw q (r :: rest))
    (kept : ∀ id ≠ (draw r.id).1, q'.jobs.find? id = q.jobs.find? id) : Fresh draw q' rest := by
  obtain ⟨here,apart⟩ := List.nodup_cons.mp fresh.apart
  refine ⟨fun x inside => fresh.text x (.tail _ inside),fun x inside => ?_,apart⟩
  rw [kept _ fun same => here (List.mem_map.mpr ⟨x,inside,same⟩)]
  exact fresh.new x (.tail _ inside)

variable (accept) in
/-- A row is processed, or the loop ends at it and the table is as it was. -/
theorem turn_cases {s : Stores} {r : ScheduleRow} (text : (draw r.id).1 ≠ "" ∧ (codeUnits (draw r.id).1).length ≤ maxText)
    (new : s.queue.jobs.find? (draw r.id).1 = none) (stored : s.rows.find? r.id = some r) :
    ∃ s', Apart draw r s s' ∧
      ((Passes accept draw s.queue r ∧ Done accept s' r ∧ ∀ rest, turns accept draw (r :: rest) s = turns accept draw rest s') ∨
        (¬Passes accept draw s.queue r ∧ s'.rows = s.rows ∧
          ∀ rest, ∃ error, turns accept draw (r :: rest) s = (.error error,s'))) := by
  have asked : (∃ answer, s.queue.enqueue accept (occurrence r) (draw r.id).1 (draw r.id).2 = .ok answer) ↔ _ :=
    enqueue_occurrence_iff text new
  cases answer : s.queue.enqueue accept (occurrence r) (draw r.id).1 (draw r.id).2 with
  | error error =>
    refine ⟨s,⟨fun _ _ => rfl,fun _ _ => rfl,fun _ _ => rfl⟩,.inr ⟨fun passes => ?_,rfl,fun rest => ⟨error,?_⟩⟩⟩
    · obtain ⟨json,accepted,agrees⟩ := passes.agrees
      obtain ⟨_,ok⟩ := asked.mpr ⟨json,accepted,passes.clock,passes.keyText,agrees⟩
      rw [answer] at ok
      cases ok
    · simp only [turns,answer]
  | ok answer' =>
    obtain ⟨j,queue⟩ := answer'
    obtain ⟨json,accepted,clock,keyText,agrees⟩ := asked.mp ⟨_,answer⟩
    have apart := enqueue_apart accept draw answer
    obtain ⟨accepted',type,under,_⟩ := enqueue_under rfl answer
    cases gone : s.rows.advance r with
    | error error =>
      refine ⟨{ s with queue },apart,.inr ⟨fun passes => ?_,rfl,fun rest => ⟨error,?_⟩⟩⟩
      · obtain ⟨_,ok⟩ := (advance_ok_iff r s.rows).mpr passes.recurs
        rw [gone] at ok
        cases ok
      · simp only [turns,answer,gone]
    | ok rows =>
      refine ⟨⟨rows,queue⟩,⟨fun id other => advance_rows gone other,apart.keyed,apart.jobs⟩,.inl ⟨?_,?_,fun rest => ?_⟩⟩
      · exact ⟨⟨json,accepted,agrees⟩,clock,keyText,(advance_ok_iff r s.rows).mp ⟨rows,gone⟩⟩
      · exact ⟨⟨j,under,type,accepted'⟩,advance_row gone stored⟩
      · simp only [turns,answer,gone]

theorem turns_done {todo : List ScheduleRow} {s : Stores} {r : ScheduleRow} (fresh : Fresh draw s.queue todo)
    (distinct : (todo.map ScheduleRow.id).Nodup) (stored : ∀ x ∈ todo, s.rows.find? x.id = some x)
    (other : r.id ∉ todo.map ScheduleRow.id) (done : Done accept s r) : Done accept (turns accept draw todo s).2 r := by
  induction todo generalizing s with
  | nil => exact done
  | cons x rest ih =>
    obtain ⟨s',apart,cases⟩ := turn_cases accept (fresh.text x (.head _)) (fresh.new x (.head _)) (stored x (.head _))
    have done' := apart.done (fun same => other (by simp [same])) done
    obtain ⟨_,_,goes⟩ | ⟨_,_,ends⟩ := cases
    · obtain ⟨here,distinct⟩ := List.nodup_cons.mp distinct
      rw [goes]
      refine ih (fresh.rest apart.jobs) distinct (fun y inside => ?_) (fun inside => other (.tail _ inside)) done'
      rw [apart.rows _ fun same => here (same ▸ List.mem_map_of_mem inside)]
      exact stored y (.tail _ inside)
    · obtain ⟨error,ended⟩ := ends rest
      rw [ended]
      exact done'

theorem not_done {s s' : Stores} {r : ScheduleRow} (same : s'.rows = s.rows) (stored : s.rows.find? r.id = some r)
    (enabled : r.enabled = true) : ¬Done accept s' r := by
  intro done
  obtain ⟨r',found,advanced⟩ := done.row
  rw [same,stored] at found
  cases found
  exact not_advanced enabled advanced

/-- A row among those of the loop is done exactly when no row up to it ends the loop. -/
theorem turns_done_iff {before after : List ScheduleRow} {r : ScheduleRow} {s : Stores}
    (fresh : Fresh draw s.queue (before ++ r :: after)) (distinct : ((before ++ r :: after).map ScheduleRow.id).Nodup)
    (stored : ∀ x ∈ before ++ r :: after, s.rows.find? x.id = some x) (enabled : r.enabled = true) :
    Done accept (turns accept draw (before ++ r :: after) s).2 r ↔ ∀ x ∈ before ++ [r], Passes accept draw s.queue x := by
  induction before generalizing s with
  | nil =>
    obtain ⟨s',apart,⟨passes,done,goes⟩ | ⟨fails,same,ends⟩⟩ :=
      turn_cases accept (fresh.text r (.head _)) (fresh.new r (.head _)) (stored r (.head _))
    · obtain ⟨here,distinct⟩ := List.nodup_cons.mp distinct
      rw [List.nil_append,goes]
      refine iff_of_true (turns_done (fresh.rest apart.jobs) distinct (fun y inside => ?_) here done) (by simpa using passes)
      rw [apart.rows _ fun same => here (same ▸ List.mem_map_of_mem inside)]
      exact stored y (.tail _ inside)
    · obtain ⟨error,ended⟩ := ends after
      rw [List.nil_append,ended]
      exact iff_of_false (not_done same (stored r (by simp)) enabled) fun passes => fails (passes r (by simp))
  | cons x before ih =>
    obtain ⟨s',apart,⟨passes,_,goes⟩ | ⟨fails,same,ends⟩⟩ :=
      turn_cases accept (fresh.text x (.head _)) (fresh.new x (.head _)) (stored x (.head _))
    · obtain ⟨here,distinct⟩ := List.nodup_cons.mp distinct
      have others : ∀ y ∈ before ++ r :: after, y.id ≠ x.id := fun y inside same =>
        here (same ▸ List.mem_map_of_mem inside)
      have stored' : ∀ y ∈ before ++ r :: after, s'.rows.find? y.id = some y := fun y inside => by
        rw [apart.rows _ (others y inside)]
        exact stored y (.tail _ inside)
      have others' : ∀ y ∈ before ++ [r], y.id ≠ x.id := fun y inside => others y (by
        obtain early | last := List.mem_append.mp inside
        · exact List.mem_append_left _ early
        · simp [List.mem_singleton.mp last])
      rw [List.cons_append,goes,ih (fresh.rest apart.jobs) distinct stored',List.cons_append,List.forall_mem_cons]
      constructor
      · exact fun all => ⟨passes,fun y inside => (apart.passes (others' y inside)).mp (all y inside)⟩
      · exact fun all y inside => (apart.passes (others' y inside)).mpr (all.2 y inside)
    · obtain ⟨error,ended⟩ := ends (before ++ r :: after)
      rw [List.cons_append,ended]
      exact iff_of_false (not_done same (stored r (by simp)) enabled) fun passes => fails (passes x (by simp))

/-- Every due row that could be processed by itself is a job and has gone on, exactly when
none of them stands behind a row that ends the loop. -/
theorem tick_unblocked_iff {s : Stores} {now : Double} (fresh : Fresh draw s.queue (s.rows.due now)) :
    (∀ r ∈ s.rows.due now, Acceptable accept r → Done accept (tick accept draw now s).2 r) ↔
      ∀ before r after, s.rows.due now = before ++ r :: after → Acceptable accept r →
        ∀ x ∈ before ++ [r], Passes accept draw s.queue x := by
  have distinct : ((s.rows.due now).map ScheduleRow.id).Nodup := s.rows.distinct.sublist (List.filter_sublist.map _)
  have stored : ∀ x ∈ s.rows.due now, s.rows.find? x.id = some x := fun x inside =>
    Table.find?_of_mem (Table.mem_select.mp inside).1
  have enabled : ∀ x ∈ s.rows.due now, x.enabled = true := fun x inside => by
    have due := (Table.mem_select.mp inside).2
    simp only [decide_eq_true_eq] at due
    exact due.1
  change (∀ r ∈ s.rows.due now, Acceptable accept r → Done accept (turns accept draw (s.rows.due now) s).2 r) ↔ _
  generalize s.rows.due now = todo at *
  constructor
  · intro all before r after split acceptable
    subst split
    exact (turns_done_iff fresh distinct stored (enabled r (by simp))).mp (all r (by simp) acceptable)
  · intro clear r inside acceptable
    obtain ⟨before,after,rfl⟩ := List.append_of_mem inside
    exact (turns_done_iff fresh distinct stored (enabled r (by simp))).mpr (clear before r after rfl acceptable)

end Unblocked

namespace Sample

/-- One registered type, whose schema accepts anything. -/
private def registry (type : String) (_ : Json) : Except String Text :=
  if type = "known" then .ok ['1'] else .error ("Unknown job type: " ++ type)

private def draw (id : String) : String × ℤ := (id,0)

private def row (id type : String) : ScheduleRow := ⟨id,type,.num 1,.everyMs 1000,0,true⟩

private def alone : Stores := ⟨⟨[row "b" "known"],by decide⟩,.empty⟩

private theorem passes_alone : Passes registry draw .empty (row "b" "known") where
  agrees := ⟨_,rfl,fun old found => by cases found⟩
  clock := by decide
  keyText := by decide
  recurs := .inr ⟨1000,by decide +kernel⟩

theorem tick_unblocked_alone : Done registry (tick registry draw 0 alone).2 (row "b" "known") := by
  refine tick_unblocked_iff ⟨by decide,by decide,by decide⟩ |>.mpr (fun before r after split _ x inside => ?_)
    (row "b" "known") (.head _) ⟨_,rfl⟩
  have only : x ∈ alone.rows.due 0 := by
    rw [split,List.append_cons]
    exact List.mem_append_left _ inside
  rw [List.mem_singleton.mp (show x ∈ [row "b" "known"] from only)]
  exact passes_alone

/-- A schedule of a type that nobody registered stands before another. -/
private def both : Stores := ⟨⟨[row "a" "unknown",row "b" "known"],by decide⟩,.empty⟩

theorem tick_blocked : ¬∀ (accept : String → Json → Except String Text) (draw : String → String × ℤ) (s : Stores)
    (now : Double), Fresh draw s.queue (s.rows.due now) → ∀ r ∈ s.rows.due now, Acceptable accept r →
      Done accept (tick accept draw now s).2 r := by
  intro all
  have done := all registry draw both 0 ⟨by decide,by decide,by decide⟩ (row "b" "known") (.tail _ (.head _)) ⟨_,rfl⟩
  obtain ⟨j,found,_⟩ := done.job
  cases found

end Sample

end RatifyOs.Autonomy.Schedules
