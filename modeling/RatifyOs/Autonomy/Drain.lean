import Mathlib.Data.List.TakeWhile
import RatifyOs.Autonomy.Events
import RatifyOs.Data.Consumption
import RatifyOs.Data.Session
import RatifyOs.Data.Table

/-! `deliver` over an outbox whose rows need not decode: how far it takes a consumer. -/
namespace RatifyOs.Autonomy.Drain
open Data Data.Session Data.Consumption

/-- A row of `outbox`. The text of its envelope is known by the envelope it says, and absent
where it does not parse. -/
structure OutboxRow where
  cursor : ℕ
  envelope : Option EventEnvelope

/-- The rows in the order of their cursors. -/
structure Outbox where
  rows : List OutboxRow
  ordered : rows.Pairwise fun r r' => r.cursor < r'.cursor

/-- The tables beside the outbox, and how often a handler was called. -/
structure Delivery where
  tables : BusTables
  calls : ℕ

def Delivery.offset (d : Delivery) (consumer : String) : ℕ := d.tables.offsets consumer

section Deliver
variable (c : BusConfig) (b : Outbox) (answers : ℕ → Except String Unit)

/-- A row that does not parse, or that `normalize` throws on, is none. -/
def decoded (r : OutboxRow) : Option StoredEvent := do
  let envelope ← r.envelope
  let e ← (c.normalize envelope).toOption
  return ⟨r.cursor,e⟩

/-- The LIMIT of a page -/
def limit : ℕ := (max 1 (min c.batch 1000)).toNat

/-- The rows after a cursor -/
def rest (cursor : ℕ) : List OutboxRow := pending OutboxRow.cursor b.rows cursor

def replay (cursor : ℕ) : List StoredEvent := ((rest b cursor).take (limit c)).filterMap (decoded c)

/-- `process`; the handler's answers are numbered by its calls. -/
def process (s : Sub) (x : StoredEvent) : Session Delivery String Unit := do
  let d ← get
  if x.cursor ≤ d.offset s.name then pure ()
  else
    let answer := if c.wants s.definition x.envelope then answers d.calls else .ok ()
    let calls := if c.wants s.definition x.envelope then d.calls + 1 else d.calls
    match answer with
    | .ok _ => set (⟨d.tables.acknowledge s.name x,calls⟩ : Delivery)
    | .error error =>
      let attempts := d.tables.attempts s.name x.cursor + 1
      let tables := d.tables.setRetry s.name x.cursor (some (attempts,error))
      if (attempts : ℤ) ≥ c.attemptsAllowed then set (⟨tables.bury s.name x error,calls⟩ : Delivery)
      else do
        set (⟨tables,calls⟩ : Delivery)
        throw error

/-- The loop of `deliver` for one subscription, of at most so many turns. -/
def drain (s : Sub) : ℕ → Session Delivery String Unit
  | 0 => throw "unreachable"
  | turns + 1 => do
    let d ← get
    let rows := replay c b (d.offset s.name)
    if rows.length = 0 then pure ()
    else do
      forM rows (process c answers s)
      if (rows.length : ℤ) < c.batch then pure () else drain s turns

def deliver (subs : Table Sub.name) : Session Delivery String Unit :=
  forM subs.rows fun s => drain c b answers s (b.rows.length + 1)

end Deliver

section Process
variable {c : BusConfig} {b : Outbox} {answers : ℕ → Except String Unit} {s : Sub} {d d' : Delivery}

/-- An event that is done with moves its consumer's offset to it, and no other offset. -/
theorem process_ok {x : StoredEvent} (done : exec (process c answers s x) d = (.ok (),d')) :
    (d.offset s.name < x.cursor → d'.offset s.name = x.cursor) ∧
      ∀ name, name ≠ s.name → d'.offset name = d.offset name := by
  have moved (t : BusTables) (same : t.offsets = Function.update d.tables.offsets s.name x.cursor) (calls : ℕ) :
      (d.offset s.name < x.cursor → (⟨t,calls⟩ : Delivery).offset s.name = x.cursor) ∧
        ∀ name, name ≠ s.name → (⟨t,calls⟩ : Delivery).offset name = d.offset name := by
    constructor
    · intro _
      simp [Delivery.offset,same]
    · intro name other
      simp [Delivery.offset,same,other]
  unfold process at done
  rw [exec_bind] at done
  dsimp only [exec_get] at done
  split at done
  · rename_i passed
    cases done
    exact ⟨fun before => absurd before (by omega),fun _ _ => rfl⟩
  · split at done
    · cases done
      exact moved _ rfl _
    · split at done
      · cases done
        exact moved _ rfl _
      · cases done

/-- Where a consumer stands after a page: at an event of it, and at none before. -/
structure Reached (d : Delivery) (name : String) (page : List StoredEvent) (d' : Delivery) : Prop where
  later : d.offset name ≤ d'.offset name
  done : ∀ x ∈ page, x.cursor ≤ d'.offset name
  stands : d'.offset name = d.offset name ∨ ∃ x ∈ page, x.cursor = d'.offset name
  others : ∀ other, other ≠ name → d'.offset other = d.offset other

theorem page_ok {page : List StoredEvent} (ordered : page.Pairwise fun x y => x.cursor < y.cursor)
    (ahead : ∀ x ∈ page, d.offset s.name < x.cursor) (done : exec (forM page (process c answers s)) d = (.ok (),d')) :
    Reached d s.name page d' := by
  induction page generalizing d with
  | nil =>
    cases done
    exact ⟨Nat.le_refl _,nofun,.inl rfl,fun _ _ => rfl⟩
  | cons x page ih =>
    obtain ⟨first,later⟩ := List.pairwise_cons.mp ordered
    rw [List.forM_cons,exec_bind_eq_ok] at done
    obtain ⟨_,mid,here,after⟩ := done
    obtain ⟨moved,others⟩ := process_ok here
    have at_ := moved (ahead x List.mem_cons_self)
    have reached := ih later (fun y inside => at_ ▸ first y inside) after
    have before := ahead x List.mem_cons_self
    refine ⟨by have := reached.later; omega,?_,?_,fun other apart => (reached.others other apart).trans (others other apart)⟩
    · simp only [List.forall_mem_cons]
      exact ⟨at_ ▸ reached.later,reached.done⟩
    · right
      rcases reached.stands with still | ⟨y,inside,same⟩
      · exact ⟨x,List.mem_cons_self,at_.symm.trans still.symm⟩
      · exact ⟨y,List.mem_cons_of_mem _ inside,same⟩

end Process

section Reach
variable {c : BusConfig} {rows : List OutboxRow}

/-- How many rows after its offset a consumer is taken over: all pages up to the first that is
not full of rows that decode, or the one page that is no full batch. -/
def reach (c : BusConfig) (rows : List OutboxRow) : ℕ :=
  if 1000 < c.batch then limit c
  else ((rows.takeWhile fun r => (decoded c r).isSome).length / limit c + 1) * limit c

theorem limit_pos : 0 < limit c := by
  unfold limit
  omega

theorem limit_le : limit c ≤ 1000 := by
  unfold limit
  omega

theorem batch_le_limit (small : c.batch ≤ 1000) : c.batch ≤ limit c := by
  unfold limit
  omega

/-- The page is not full, so the loop ends with it. -/
theorem reach_short {page : List StoredEvent} (page_eq : (rows.take (limit c)).filterMap (decoded c) = page)
    (short : page.length = 0 ∨ (page.length : ℤ) < c.batch) : reach c rows = limit c := by
  unfold reach
  split_ifs with large
  · rfl
  have small := batch_le_limit (Int.not_lt.mp large)
  have positive := limit_pos (c := c)
  have few : (rows.takeWhile fun r => (decoded c r).isSome).length < limit c := by
    by_contra many
    have prefix_ : rows.take (limit c) <+: rows.takeWhile fun r => (decoded c r).isSome :=
      List.prefix_of_prefix_length_le (List.take_prefix _ _) (List.takeWhile_prefix _) (by
        rw [List.length_take]
        omega)
    have decodes : ∀ r ∈ rows.take (limit c), (decoded c r).isSome := fun r inside =>
      List.all_eq_true.mp List.all_takeWhile r (prefix_.subset inside)
    have full : page.length = (rows.take (limit c)).length := by
      rw [← page_eq]
      exact List.filterMap_length_eq_length.mpr decodes
    have long := (List.takeWhile_prefix (l := rows) fun r => (decoded c r).isSome).length_le
    rw [List.length_take] at full
    omega
  rw [Nat.div_eq_of_lt few,Nat.zero_add,Nat.one_mul]

/-- The page is full, so the loop goes on after it. -/
theorem reach_full {page : List StoredEvent} (page_eq : (rows.take (limit c)).filterMap (decoded c) = page)
    (some_ : page.length ≠ 0) (full : ¬(page.length : ℤ) < c.batch) :
    reach c rows = limit c + reach c (rows.drop (limit c)) ∧ page.length = limit c ∧
      ∀ r ∈ rows.take (limit c), (decoded c r).isSome := by
  have upper : page.length ≤ (rows.take (limit c)).length := page_eq ▸ List.length_filterMap_le _ _
  have cut : (rows.take (limit c)).length ≤ limit c := List.length_take_le _ _
  have positive := limit_pos (c := c)
  have bound := limit_le (c := c)
  have small : c.batch ≤ 1000 := by omega
  have exactly : limit c = max 1 c.batch.toNat := by
    unfold limit
    omega
  have length : page.length = limit c := by omega
  have decodes : ∀ r ∈ rows.take (limit c), (decoded c r).isSome := by
    refine List.filterMap_length_eq_length.mp ?_
    rw [page_eq]
    omega
  refine ⟨?_,length,decodes⟩
  have cut_eq : (rows.take (limit c)).length = limit c := by omega
  have taken : (rows.takeWhile fun r => (decoded c r).isSome).length =
      limit c + ((rows.drop (limit c)).takeWhile fun r => (decoded c r).isSome).length := by
    conv_lhs => rw [← List.take_append_drop (limit c) rows]
    rw [List.takeWhile_append_of_pos decodes,List.length_append,cut_eq]
  unfold reach
  rw [if_neg (by omega),if_neg (by omega),taken,Nat.add_div_left _ positive,Nat.succ_mul,Nat.add_comm]

end Reach

/-- The consumer is at the last row that decodes, or past it. -/
def Drained (c : BusConfig) (b : Outbox) (offset : ℕ) : Prop :=
  ∀ r ∈ b.rows, (decoded c r).isSome → r.cursor ≤ offset

/-- No row that decodes lies beyond the pages that are read. -/
def Reaches (c : BusConfig) (b : Outbox) (offset : ℕ) : Prop :=
  ∀ r ∈ (rest b offset).drop (reach c (rest b offset)), decoded c r = none

section Drain
variable {c : BusConfig} {b : Outbox} {answers : ℕ → Except String Unit} {s : Sub} {d d' : Delivery}

theorem decoded_cursor {r : OutboxRow} {x : StoredEvent} (decodes : decoded c r = some x) : x.cursor = r.cursor := by
  unfold decoded at decodes
  simp only [Option.bind_eq_bind,Option.bind_eq_some_iff,Option.pure_def,Option.some.injEq] at decodes
  obtain ⟨_,-,_,-,rfl⟩ := decodes
  rfl

theorem rest_ordered (offset : ℕ) : (rest b offset).Pairwise fun r r' => r.cursor < r'.cursor := b.ordered.filter _

theorem mem_rest {offset : ℕ} {r : OutboxRow} : r ∈ rest b offset ↔ r ∈ b.rows ∧ offset < r.cursor := by
  simp [rest,pending]

/-- The rows after one of the rows after an offset are those behind it. -/
theorem rest_split {offset : ℕ} {before after : List OutboxRow} {r : OutboxRow}
    (split : rest b offset = before ++ r :: after) : rest b r.cursor = after := by
  have ordered := rest_ordered (b := b) offset
  rw [split,List.pairwise_append,List.pairwise_cons] at ordered
  obtain ⟨-,⟨later,-⟩,earlier⟩ := ordered
  have listed : r ∈ rest b offset := by rw [split]; simp
  have inside : offset < r.cursor := (mem_rest.mp listed).2
  have narrower : rest b r.cursor = (rest b offset).filter fun r' => r.cursor < r'.cursor := by
    unfold rest pending
    rw [List.filter_filter]
    refine List.filter_congr fun r' _ => ?_
    rw [Bool.eq_iff_iff]
    simp only [decide_eq_true_eq,Bool.and_eq_true]
    omega
  rw [narrower,split,List.filter_append,List.filter_cons_of_neg (by simp),List.filter_eq_nil_iff.mpr,List.nil_append,
    List.filter_eq_self.mpr]
  · exact fun r' there => by simpa using later r' there
  · intro r' there
    have := earlier r' there r List.mem_cons_self
    simp only [decide_eq_true_eq]
    omega

theorem replay_ordered (offset : ℕ) : (replay c b offset).Pairwise fun x y => x.cursor < y.cursor := by
  refine List.Pairwise.filterMap _ ?_ ((rest_ordered (b := b) offset).sublist (List.take_sublist _ _))
  intro r r' less x decodes y decodes'
  rw [decoded_cursor decodes,decoded_cursor decodes']
  exact less

theorem replay_ahead {offset : ℕ} {x : StoredEvent} (inside : x ∈ replay c b offset) : offset < x.cursor := by
  obtain ⟨r,taken,decodes⟩ := List.mem_filterMap.mp inside
  rw [decoded_cursor decodes]
  exact (mem_rest.mp (List.mem_of_mem_take taken)).2

/-- Where a page ends the loop, the rest of the rows is left as it is. -/
theorem drained_short {offset offset' : ℕ} (later : offset ≤ offset')
    (done : ∀ x ∈ replay c b offset, x.cursor ≤ offset')
    (stands : offset' = offset ∨ ∃ x ∈ replay c b offset, x.cursor = offset') :
    Drained c b offset' ↔ ∀ r ∈ (rest b offset).drop (limit c), decoded c r = none := by
  have ordered := rest_ordered (b := b) offset
  rw [← List.take_append_drop (limit c) (rest b offset),List.pairwise_append] at ordered
  have apart := ordered.2.2
  constructor
  · intro drained r left
    obtain ⟨inside,beyond⟩ := mem_rest.mp (List.mem_of_mem_drop left)
    by_contra decodes
    have reached := drained r inside (Option.isSome_iff_ne_none.mpr decodes)
    rcases stands with same | ⟨x,page,same⟩
    · omega
    · obtain ⟨r',taken,decodes'⟩ := List.mem_filterMap.mp page
      have := apart r' taken r left
      rw [decoded_cursor decodes'] at same
      omega
  · intro none_ r inside decodes
    by_cases beyond : offset < r.cursor
    · have listed : r ∈ (rest b offset).take (limit c) ++ (rest b offset).drop (limit c) := by
        rw [List.take_append_drop]
        exact mem_rest.mpr ⟨inside,beyond⟩
      rcases List.mem_append.mp listed with taken | left
      · obtain ⟨x,known⟩ := Option.isSome_iff_exists.mp decodes
        exact decoded_cursor known ▸ done x (List.mem_filterMap.mpr ⟨r,taken,known⟩)
      · rw [none_ r left] at decodes
        cases decodes
    · omega

/-- A full page moves the consumer to its last row. -/
theorem rest_full {offset offset' : ℕ} (some_ : (replay c b offset).length ≠ 0)
    (full : ¬((replay c b offset).length : ℤ) < c.batch) (done : ∀ x ∈ replay c b offset, x.cursor ≤ offset')
    (stands : offset' = offset ∨ ∃ x ∈ replay c b offset, x.cursor = offset') :
    rest b offset' = (rest b offset).drop (limit c) := by
  obtain ⟨-,length,decodes⟩ := reach_full rfl some_ full
  have taken : (rest b offset).take (limit c) ≠ [] := by
    intro nothing
    exact some_ (by simp [replay,nothing])
  obtain ⟨before,last,page⟩ : ∃ before last, (rest b offset).take (limit c) = before ++ [last] :=
    ⟨_,_,(List.dropLast_append_getLast taken).symm⟩
  have split : rest b offset = before ++ last :: (rest b offset).drop (limit c) := by
    conv_lhs => rw [← List.take_append_drop (limit c) (rest b offset),page]
    simp
  have ordered := rest_ordered (b := b) offset
  rw [← List.take_append_drop (limit c) (rest b offset),List.pairwise_append,page,List.pairwise_append] at ordered
  obtain ⟨x,known⟩ := Option.isSome_iff_exists.mp (decodes last (by rw [page]; simp))
  have listed : last ∈ (rest b offset).take (limit c) := by rw [page]; simp
  have upto := decoded_cursor known ▸ done x (List.mem_filterMap.mpr ⟨last,listed,known⟩)
  have beyond : offset < last.cursor := (mem_rest.mp (List.mem_of_mem_take listed)).2
  have here : offset' = last.cursor := by
    rcases stands with same | ⟨y,listed,same⟩
    · omega
    · obtain ⟨r,taken,decodes'⟩ := List.mem_filterMap.mp listed
      rw [decoded_cursor decodes'] at same
      rw [page] at taken
      rcases List.mem_append.mp taken with earlier | end_
      · have := ordered.1.2.2 r earlier last List.mem_cons_self
        omega
      · rw [List.mem_singleton.mp end_] at same
        exact same.symm
  rw [here]
  exact rest_split split

theorem exec_drain (turns : ℕ) (d : Delivery) : exec (drain c b answers s (turns + 1)) d =
    if (replay c b (d.offset s.name)).length = 0 then (.ok (),d)
    else match exec (forM (replay c b (d.offset s.name)) (process c answers s)) d with
      | (.ok _,mid) =>
        if ((replay c b (d.offset s.name)).length : ℤ) < c.batch then (.ok (),mid) else exec (drain c b answers s turns) mid
      | (.error error,mid) => (.error error,mid) := by
  rw [drain,exec_bind]
  dsimp only [exec_get]
  split
  · rfl
  · rw [exec_bind]
    rcases exec (forM (replay c b (d.offset s.name)) (process c answers s)) d with ⟨error | _,mid⟩
    · rfl
    · dsimp only
      split <;> rfl

/-- What a full page leaves is less than what was there. -/
theorem rest_fewer {offset offset' : ℕ} (some_ : (replay c b offset).length ≠ 0)
    (onwards : rest b offset' = (rest b offset).drop (limit c)) : (rest b offset').length < (rest b offset).length := by
  have upper : (replay c b offset).length ≤ ((rest b offset).take (limit c)).length := List.length_filterMap_le _ _
  have positive := limit_pos (c := c)
  rw [onwards,List.length_drop]
  rw [List.length_take] at upper
  omega

theorem drain_ok {turns : ℕ} (enough : (rest b (d.offset s.name)).length < turns)
    (done : exec (drain c b answers s turns) d = (.ok (),d')) :
    (Drained c b (d'.offset s.name) ↔ Reaches c b (d.offset s.name)) ∧
      ∀ other, other ≠ s.name → d'.offset other = d.offset other := by
  induction turns generalizing d with
  | zero => omega
  | succ turns ih =>
    rw [exec_drain] at done
    split at done
    · rename_i none_
      cases done
      have nothing : replay c b (d'.offset s.name) = [] := List.eq_nil_of_length_eq_zero none_
      have left := drained_short (c := c) (b := b) (Nat.le_refl (d'.offset s.name)) (by simp [nothing]) (.inl rfl)
      rw [left,Reaches,reach_short rfl (.inl none_)]
      exact ⟨Iff.rfl,fun _ _ => rfl⟩
    · rename_i some_
      split at done
      · rename_i mid paged
        have reached := page_ok (replay_ordered _) (fun x inside => replay_ahead inside) paged
        split at done
        · rename_i short
          cases done
          rw [drained_short reached.later reached.done reached.stands,Reaches,reach_short rfl (.inr short)]
          exact ⟨Iff.rfl,reached.others⟩
        · rename_i full
          have onwards := rest_full some_ full reached.done reached.stands
          have fewer := rest_fewer some_ onwards
          obtain ⟨drained,others⟩ := ih (by omega) done
          refine ⟨drained.trans ?_,fun other apart => (others other apart).trans (reached.others other apart)⟩
          unfold Reaches
          rw [onwards,(reach_full rfl some_ full).1,List.drop_drop]
      · cases done

/-- A loop that is given more turns does the same. -/
theorem drain_turns {turns : ℕ} (enough : (rest b (d.offset s.name)).length < turns) :
    exec (drain c b answers s (turns + 1)) d = exec (drain c b answers s turns) d := by
  induction turns generalizing d with
  | zero => omega
  | succ turns ih =>
    rw [exec_drain,exec_drain]
    split
    · rfl
    · rename_i some_
      split
      · rename_i mid paged
        split
        · rfl
        · rename_i full
          have reached := page_ok (replay_ordered _) (fun x inside => replay_ahead inside) paged
          have fewer := rest_fewer some_ (rest_full some_ full reached.done reached.stands)
          exact ih (by omega)
      · rfl

theorem subs_ok {subs : List Sub} (distinct : (subs.map Sub.name).Nodup)
    (done : exec (forM subs fun s => drain c b answers s (b.rows.length + 1)) d = (.ok (),d')) :
    (∀ s ∈ subs, Drained c b (d'.offset s.name) ↔ Reaches c b (d.offset s.name)) ∧
      ∀ other ∉ subs.map Sub.name, d'.offset other = d.offset other := by
  induction subs generalizing d with
  | nil =>
    cases done
    exact ⟨nofun,fun _ _ => rfl⟩
  | cons s subs ih =>
    rw [List.forM_cons,exec_bind_eq_ok] at done
    obtain ⟨_,mid,first,rest_⟩ := done
    rw [List.map_cons,List.nodup_cons] at distinct
    have enough : (rest b (d.offset s.name)).length < b.rows.length + 1 := Nat.lt_succ_of_le (List.length_filter_le _ _)
    obtain ⟨drained,others⟩ := drain_ok enough first
    obtain ⟨later,kept⟩ := ih distinct.2 rest_
    constructor
    · simp only [List.forall_mem_cons]
      refine ⟨?_,fun s' inside => ?_⟩
      · rw [kept s.name distinct.1]
        exact drained
      · have apart : s'.name ≠ s.name := fun same => distinct.1 (same ▸ List.mem_map_of_mem inside)
        rw [later s' inside,others s'.name apart]
    · intro other apart
      rw [List.map_cons,List.mem_cons,not_or] at apart
      rw [kept other apart.2,others other apart.1]

end Drain

theorem deliver_drains_iff (c : BusConfig) (b : Outbox) (answers : ℕ → Except String Unit) (subs : Table Sub.name)
    (d d' : Delivery) (done : exec (deliver c b answers subs) d = (.ok (),d')) :
    (∀ s ∈ subs.rows, Drained c b (d'.offset s.name)) ↔ ∀ s ∈ subs.rows, Reaches c b (d.offset s.name) :=
  forall₂_congr (subs_ok subs.distinct done).1

namespace Sample

private def event (id : String) : EventEnvelope := ⟨id,"x",1,"test",id,none,"",.null⟩

/-- Pages of two rows, where the second one does not parse. -/
private def config : BusConfig := ⟨none,some 2,fun _ => none,fun _ _ => true⟩

private def subs : Table Sub.name := ⟨[⟨1,"c",⟨none,"1",none⟩⟩],by decide⟩

private def start : Delivery := ⟨.empty,0⟩

private def answered (_ : ℕ) : Except String Unit := .ok ()

private def sound : Outbox := ⟨[⟨1,some (event "a")⟩,⟨2,some (event "b")⟩,⟨3,some (event "c")⟩],by decide⟩

theorem deliver_drains_sound :
    Drained config sound ((exec (deliver config sound answered subs) start).2.offset "c") := by
  refine (deliver_drains_iff config sound answered subs start _ (by rfl)).mpr ?_ ⟨1,"c",⟨none,"1",none⟩⟩ (.head _)
  unfold Reaches
  decide +kernel

/-- The second row does not parse, and the page of two rows it is in is the last one. -/
private def poisoned : Outbox := ⟨[⟨1,some (event "a")⟩,⟨2,none⟩,⟨3,some (event "c")⟩],by decide⟩

theorem deliver_stops : ¬∀ (c : BusConfig) (b : Outbox) (answers : ℕ → Except String Unit) (subs : Table Sub.name)
    (d d' : Delivery), exec (deliver c b answers subs) d = (.ok (),d') → ∀ s ∈ subs.rows, Drained c b (d'.offset s.name) := by
  intro all
  have drained := all config poisoned answered subs start _ (by rfl)
  have stuck : ¬∀ s ∈ subs.rows, Drained config poisoned ((exec (deliver config poisoned answered subs) start).2.offset s.name) := by
    unfold Drained
    decide +kernel
  exact stuck drained

end Sample

end RatifyOs.Autonomy.Drain
