import RatifyOs.Autonomy.Settling

/-! `cancelParent` over the tree of the sessions: what its walk reaches, and what it leaves. -/
namespace RatifyOs.Autonomy.Delegation
open Data Data.Result

/-- An entry below a session, along entries that satisfy a condition. -/
inductive Descendant (s : DelegationManager) (through : Entry → Prop) (parent : String) : Entry → Prop
  | child {e : Entry} : e ∈ s.entries.rows → e.request.parentSessionId = parent → Descendant s through parent e
  | under {mid e : Entry} : Descendant s through parent mid → through mid → e ∈ s.entries.rows →
      e.request.parentSessionId = mid.id → Descendant s through parent e

/-- Its signal is aborted, or it is settled as cancelled. -/
def Cancelled (e : Entry) : Prop := e.aborted ≠ none ∨ e.status = .cancelled

def Alive (e : Entry) : Prop := e.status.terminal = false

def CancelledAt (s : DelegationManager) (number : ℕ) : Prop := ∃ e, s.entries.find? number = some e ∧ Cancelled e

/-- Everything alive below a session is cancelled. -/
def SubtreeCancelled (before after : DelegationManager) (parent : String) : Prop :=
  ∀ e, Descendant before (fun _ => True) parent e → Alive e → CancelledAt after e.number

section Tree
variable {s : DelegationManager} {through : Entry → Prop} {parent : String} {e : Entry}

theorem Descendant.mem (descendant : Descendant s through parent e) : e ∈ s.entries.rows := by
  cases descendant with
  | child inside => exact inside
  | under _ _ inside => exact inside

theorem Descendant.top (descendant : Descendant s through parent e) :
    ∃ c ∈ s.entries.rows, c.request.parentSessionId = parent ∧ (c = e ∨ through c ∧ Descendant s through c.id e) := by
  induction descendant with
  | child inside child => exact ⟨_,inside,child,.inl rfl⟩
  | under _ passes inside child ih =>
    obtain ⟨c,there,top,same | ⟨open_,lower⟩⟩ := ih
    · subst same
      exact ⟨c,there,top,.inr ⟨passes,.child inside child⟩⟩
    · exact ⟨c,there,top,.inr ⟨open_,.under lower passes inside child⟩⟩

theorem length_lt_id (e : Entry) : e.request.parentSessionId.length < e.id.length := by
  have colon : (":child:" : String).length = 7 := by decide
  unfold Entry.id childId
  rw [String.length_append,String.length_append,colon]
  omega

/-- The entries that can be below a session: an id is longer than the one of its parent. -/
def room (s : DelegationManager) (parent : String) : ℕ :=
  s.entries.rows.countP fun e => parent.length ≤ e.request.parentSessionId.length

theorem room_lt (inside : e ∈ s.entries.rows) (child : e.request.parentSessionId = parent) : room s e.id < room s parent := by
  have longer := length_lt_id e
  have implies (other : Entry) : decide (e.id.length ≤ other.request.parentSessionId.length) = true →
      decide (parent.length ≤ other.request.parentSessionId.length) = true := by
    simp only [decide_eq_true_eq]
    intro long
    rw [← child]
    omega
  unfold room
  obtain ⟨before,after,rows⟩ := List.append_of_mem inside
  rw [rows,List.countP_append,List.countP_append,List.countP_cons_of_neg (by simpa using longer),
    List.countP_cons_of_pos (by simp [child])]
  have first := List.countP_mono_left (l := before) fun other _ => implies other
  have second := List.countP_mono_left (l := after) fun other _ => implies other
  omega

end Tree

section Walk
variable {options : DelegationOptions} {base s t u : DelegationManager} {parent : String} {e : Entry}

def Keeps (s t : DelegationManager) : Prop := ∀ number, CancelledAt s number → CancelledAt t number

theorem Keeps.refl (s : DelegationManager) : Keeps s s := fun _ cancelled => cancelled

theorem Keeps.trans (first : Keeps s t) (second : Keeps t u) : Keeps s u :=
  fun number cancelled => second number (first number cancelled)

/-- All that is alive below a session, along what is alive, is cancelled. -/
def Swept (base s : DelegationManager) (parent : String) : Prop :=
  ∀ e, Descendant base Alive parent e → Alive e → CancelledAt s e.number

theorem Swept.mono (swept : Swept base s parent) (keeps : Keeps s t) : Swept base t parent :=
  fun e descendant alive => keeps _ (swept e descendant alive)

/-- Where the walk of `cancelParent` stands: it has changed only what it reaches, and what it
has ended is swept. -/
structure Walk (options : DelegationOptions) (base : DelegationManager) (parent : String) (s : DelegationManager) : Prop where
  rested : Rested options s
  changed : ∀ number, s.entries.find? number = base.entries.find? number ∨
    ∃ e e', base.entries.find? number = some e ∧ s.entries.find? number = some e' ∧ Alive e ∧
      e'.request = e.request ∧ Descendant base Alive parent e ∧ Cancelled e'
  closed : ∀ e ∈ base.entries.rows, Alive e → (∃ e', s.entries.find? e.number = some e' ∧ ¬Alive e') → Swept base s e.id

theorem Walk.origin (walk : Walk options base parent s) {number : ℕ} (found : s.entries.find? number = some e) :
    ∃ old, base.entries.find? number = some old ∧ e.request = old.request ∧ (Alive e → Alive old) ∧
      (e = old ∨ Alive old ∧ Cancelled e) := by
  rcases walk.changed number with same | ⟨old,new,was,is_,alive,request,-,cancelled⟩
  · exact ⟨e,same ▸ found,rfl,id,.inl rfl⟩
  · obtain rfl : new = e := Option.some.inj (is_.symm.trans found)
    exact ⟨old,was,request,fun _ => alive,.inr ⟨alive,cancelled⟩⟩

theorem Walk.version (walk : Walk options base parent s) {number : ℕ} (found : base.entries.find? number = some e) :
    ∃ new, s.entries.find? number = some new ∧ new.request = e.request ∧ (new = e ∨ Cancelled new) := by
  rcases walk.changed number with same | ⟨old,new,was,is_,-,request,-,cancelled⟩
  · exact ⟨e,same.trans found,rfl,.inl rfl⟩
  · obtain rfl : old = e := Option.some.inj (was.symm.trans found)
    exact ⟨new,is_,request,.inr cancelled⟩

/-- A cancellation of what is alive replaces that entry. -/
theorem cancel_entries (proper : Proper e) (alive : Alive e) (reason : String) : ∃ e' : Entry,
    e'.number = e.number ∧ e'.request = e.request ∧ Cancelled e' ∧ (s.cancel e reason).entries = s.entries.put e' := by
  obtain ⟨open_,counted⟩ := proper.alive alive
  have aborted : (DelegationManager.abort e reason).aborted ≠ none := Option.some_ne_none _
  rw [cancel_eq,if_neg (by rw [alive]; exact Bool.false_ne_true)]
  split_ifs with queued
  · rw [finish_eq (e := DelegationManager.abort e reason) open_ counted]
    exact ⟨settledWith (DelegationManager.abort e reason) _ _ _,rfl,rfl,.inl aborted,rfl⟩
  · exact ⟨DelegationManager.abort e reason,rfl,rfl,.inl aborted,rfl⟩

theorem cancel_over (over_ : ¬Alive e) (reason : String) : s.cancel e reason = s := by
  rw [cancel_eq,if_pos (by simpa [Alive] using over_)]

/-- A cancellation is a step of the walk, when all below the child is swept. -/
theorem Walk.cancel (walk : Walk options base parent s) {old : Entry} (was : base.entries.find? e.number = some old)
    (found : s.entries.find? e.number = some e) (descendant : Descendant base Alive parent old) (swept : Swept base s old.id)
    (reason : String) : Walk options base parent (s.cancel e reason) ∧ Keeps s (s.cancel e reason) ∧
      (Alive old → CancelledAt (s.cancel e reason) e.number) := by
  obtain ⟨old',was',request,older,origin⟩ := walk.origin found
  obtain rfl : old = old' := Option.some.inj (was.symm.trans was')
  by_cases alive : Alive e
  swap
  · rw [cancel_over alive]
    refine ⟨walk,.refl s,fun alive' => ⟨e,found,?_⟩⟩
    rcases origin with rfl | ⟨-,cancelled⟩
    · exact absurd alive' alive
    · exact cancelled
  obtain ⟨e',number,request',cancelled,entries⟩ :=
    cancel_entries (s := s) (walk.rested.balanced.proper e (Table.mem_of_find? found)) alive reason
  have here : (s.cancel e reason).entries.find? e.number = some e' := by
    rw [entries,Table.find?_put,if_pos number,found]
    rfl
  have there {other : ℕ} (apart : other ≠ e.number) :
      (s.cancel e reason).entries.find? other = s.entries.find? other := by
    rw [entries,Table.find?_put_of_ne (by rw [number]; exact Ne.symm apart)]
  have keeps : Keeps s (s.cancel e reason) := by
    intro other ⟨x,is_,done⟩
    by_cases same : other = e.number
    · exact ⟨e',same ▸ here,cancelled⟩
    · exact ⟨x,(there same).trans is_,done⟩
  have stepped : Rested options (s.cancel e reason) ∧ Later True s (s.cancel e reason) := walk.rested.cancel found reason
  refine ⟨⟨stepped.1,fun other => ?_,?_⟩,keeps,fun _ => ⟨e',here,cancelled⟩⟩
  · by_cases same : other = e.number
    · subst same
      exact .inr ⟨old,e',was,here,older alive,request'.trans request,descendant,cancelled⟩
    · rw [there same]
      exact walk.changed other
  · intro x inside open_ ⟨x',is_,over_⟩
    by_cases same : x.number = e.number
    · obtain rfl : old = x := Option.some.inj (was.symm.trans (same ▸ Table.find?_of_mem inside))
      exact swept.mono keeps
    · exact (walk.closed x inside open_ ⟨x',(there same).symm.trans is_,over_⟩).mono keeps

/-- One turn of the loop sweeps one child and all below it. -/
theorem Walk.visitChild {reason : String} {below : DelegationManager → String → DelegationManager} {q : String}
    (anchored : ∀ c ∈ base.entries.rows, c.request.parentSessionId = q → Descendant base Alive parent c)
    (deeper : ∀ {s : DelegationManager} {c : Entry}, Walk options base parent s → c ∈ base.entries.rows →
      c.request.parentSessionId = q → Alive c →
        Walk options base parent (below s c.id) ∧ Keeps s (below s c.id) ∧ Swept base (below s c.id) c.id)
    (walk : Walk options base parent s) (number : ℕ) :
    Walk options base parent (DelegationManager.visitChild reason below q s number) ∧
      Keeps s (DelegationManager.visitChild reason below q s number) ∧
        ∀ c, base.entries.find? number = some c → c.request.parentSessionId = q → Alive c →
          CancelledAt (DelegationManager.visitChild reason below q s number) number ∧
            Swept base (DelegationManager.visitChild reason below q s number) c.id := by
  unfold DelegationManager.visitChild
  cases found : s.entries.find? number with
  | none =>
    refine ⟨walk,.refl s,fun c was _ _ => ?_⟩
    obtain ⟨new,is_,-⟩ := walk.version was
    cases found.symm.trans is_
  | some e =>
    obtain ⟨old,was,request,older,origin⟩ := walk.origin found
    have number_ : e.number = number := Table.key_of_find? found
    have number' : old.number = number := Table.key_of_find? was
    have inside := Table.mem_of_find? was
    dsimp only
    split_ifs with turn
    swap
    · refine ⟨walk,.refl s,fun c was' child alive => ?_⟩
      obtain rfl : old = c := Option.some.inj (was.symm.trans was')
      have over_ : ¬Alive e := fun open_ => turn ⟨(congrArg SpawnRequest.parentSessionId request).trans child,open_⟩
      refine ⟨⟨e,found,?_⟩,walk.closed old inside alive ⟨e,number'.symm ▸ found,over_⟩⟩
      rcases origin with rfl | ⟨-,cancelled⟩
      · exact absurd alive over_
      · exact cancelled
    obtain ⟨child,alive⟩ := turn
    have child' : old.request.parentSessionId = q := (congrArg SpawnRequest.parentSessionId request).symm.trans child
    have id_ : e.id = old.id := by
      unfold Entry.id
      rw [request,number_,number']
    obtain ⟨walk',keeps,swept⟩ := deeper walk inside child' (older alive)
    rw [id_]
    obtain ⟨new,is_,-⟩ := walk'.version was
    obtain rfl := Table.key_of_find? is_
    rw [is_]
    dsimp only
    obtain ⟨walk'',keeps',cancelled⟩ := walk'.cancel was is_ (anchored old inside child') swept reason
    refine ⟨walk'',keeps.trans keeps',fun c was' _ open_ => ?_⟩
    obtain rfl : old = c := Option.some.inj (was.symm.trans was')
    exact ⟨cancelled open_,swept.mono keeps'⟩

/-- The walk goes deep enough, and sweeps all below a session that it reaches. -/
theorem Walk.visit (reason : String) (fuel : ℕ) : ∀ {s : DelegationManager} {q : String}, Walk options base parent s →
    (∀ c ∈ base.entries.rows, c.request.parentSessionId = q → Descendant base Alive parent c) → room base q ≤ fuel →
      Walk options base parent (DelegationManager.visit reason fuel s q) ∧
        Keeps s (DelegationManager.visit reason fuel s q) ∧ Swept base (DelegationManager.visit reason fuel s q) q := by
  induction fuel with
  | zero =>
    intro s q walk _ enough
    refine ⟨walk,.refl s,fun e descendant _ => ?_⟩
    obtain ⟨c,inside,child,-⟩ := descendant.top
    have less := room_lt inside child
    omega
  | succ fuel ih =>
    intro s q walk anchored enough
    unfold DelegationManager.visit
    have deeper {s : DelegationManager} {c : Entry} (walk : Walk options base parent s) (inside : c ∈ base.entries.rows)
        (child : c.request.parentSessionId = q) (alive : Alive c) := by
      have less := room_lt inside child
      exact ih (q := c.id) walk (fun d there below => .under (anchored c inside child) alive there below) (by omega)
    -- the loop, over any of the numbers
    have loop (numbers : List ℕ) : ∀ {s : DelegationManager}, Walk options base parent s →
        Walk options base parent (numbers.foldl (DelegationManager.visitChild reason (DelegationManager.visit reason fuel) q) s) ∧
          Keeps s (numbers.foldl (DelegationManager.visitChild reason (DelegationManager.visit reason fuel) q) s) ∧
            ∀ c ∈ base.entries.rows, c.number ∈ numbers → c.request.parentSessionId = q → Alive c →
              CancelledAt (numbers.foldl (DelegationManager.visitChild reason (DelegationManager.visit reason fuel) q) s) c.number ∧
                Swept base (numbers.foldl (DelegationManager.visitChild reason (DelegationManager.visit reason fuel) q) s) c.id := by
      induction numbers with
      | nil => exact fun walk => ⟨walk,.refl _,fun c _ inside => absurd inside List.not_mem_nil⟩
      | cons number numbers rest =>
        intro s walk
        obtain ⟨walked,keeps,here⟩ := walk.visitChild anchored deeper number
        obtain ⟨after,keeps',others⟩ := rest walked
        refine ⟨after,keeps.trans keeps',fun c inside listed child alive => ?_⟩
        rcases List.mem_cons.mp listed with rfl | later
        · obtain ⟨cancelled,swept⟩ := here c (Table.find?_of_mem inside) child alive
          exact ⟨keeps' _ cancelled,swept.mono keeps'⟩
        · exact others c inside later child alive
    obtain ⟨walked,keeps,swept⟩ := loop (s.entries.rows.map Entry.number) walk
    refine ⟨walked,keeps,fun e descendant alive => ?_⟩
    obtain ⟨c,inside,child,lower⟩ := descendant.top
    obtain ⟨new,is_,-⟩ := walk.version (Table.find?_of_mem inside)
    have listed : c.number ∈ s.entries.rows.map Entry.number :=
      List.mem_map.mpr ⟨new,Table.mem_of_find? is_,Table.key_of_find? is_⟩
    rcases lower with rfl | ⟨open_,descendant'⟩
    · exact (swept c inside listed child alive).1
    · exact (swept c inside listed child open_).2 e descendant' alive

theorem Walk.start (rested : Rested options base) : Walk options base parent base := by
  refine ⟨rested,fun _ => .inl rfl,fun e inside alive ⟨e',found,over_⟩ => ?_⟩
  obtain rfl : e = e' := Option.some.inj ((Table.find?_of_mem inside).symm.trans found)
  exact absurd alive over_

end Walk

/-- In every state that a run reaches, and for every session: the whole subtree is cancelled
exactly when no child that is alive and not yet aborted is below one that is over. -/
theorem subtree_cancelled_iff (options : DelegationOptions) (events : List Event) (parent reason : String) :
    let s := Run.run (DelegationManager.step options) .new events
    SubtreeCancelled s (s.cancelParent parent reason) parent ↔
      ∀ e, Descendant s (fun _ => True) parent e → Alive e → e.aborted = none → Descendant s Alive parent e := by
  intro s
  have rested : Rested options s := ((Rested.new options).anyRun events).1
  have start : Walk options s parent s := Walk.start rested
  obtain ⟨walk,-,swept⟩ := start.visit reason s.entries.rows.length (fun c inside child => .child inside child) List.countP_le_length
  constructor
  · intro all e descendant alive unaborted
    have found := Table.find?_of_mem descendant.mem
    obtain ⟨e',is_,cancelled⟩ := all e descendant alive
    rcases walk.changed e.number with same | ⟨old,-,was,-,-,-,reached,-⟩
    · obtain rfl : e = e' := Option.some.inj (found.symm.trans (same.symm.trans is_))
      rcases cancelled with aborted | over_
      · exact absurd unaborted aborted
      · simp [Alive,over_,DelegationStatus.terminal] at alive
    · obtain rfl : old = e := Option.some.inj (was.symm.trans found)
      exact reached
  · intro joined e descendant alive
    obtain ⟨new,is_,-,same | cancelled⟩ := walk.version (Table.find?_of_mem descendant.mem)
    · by_cases aborted : e.aborted = none
      · exact swept e (joined e descendant alive aborted) alive
      · exact ⟨new,is_,.inl (same ▸ aborted)⟩
    · exact ⟨new,is_,cancelled⟩

namespace Sample

def limits : DelegationLimits :=
  { maxDepth := 3, maxChildren := 3, maxIterations := 8, maxCostUsd := 1, concurrency := 2
    maxChildren_pos := by decide, concurrency_pos := by decide }

def options : DelegationOptions :=
  { limits, allowed := ["market:read"], runtimeFactory := fun _ => none, verifies := false, blank := fun s => s = "" }

def request (parentSessionId : String) : SpawnRequest :=
  { task := "quote", parentSessionId, parentCapabilities := ["market:read"]
    requestedCapabilities := ["market:read"], depth := none }

def answer : ChildRuntimeResult :=
  { summary := "done", iterations := .finite 1, costUsd := .finite 0, details := none, clones := true }

/-- A child completes while its own child runs. -/
def orphaned : DelegationManager :=
  Run.run (DelegationManager.step options) .new
    [.spawn (request "root"),.drains,.spawn (request "root:child:1"),.drains,.raced 1 (.ok (some answer)),
      .announced 1 (.ok ()),.archived 1 (.ok ()),.returned 1]

theorem subtree_left : ¬∀ (options : DelegationOptions) (events : List Event) (parent reason : String),
    SubtreeCancelled (Run.run (DelegationManager.step options) .new events)
      ((Run.run (DelegationManager.step options) .new events).cancelParent parent reason) parent := by
  intro all
  have left : SubtreeCancelled orphaned (orphaned.cancelParent "root" "stop") "root" := all options _ "root" "stop"
  have child : (orphaned.entries.find? 1).any fun e => e.request.parentSessionId = "root" ∧ e.id = "root:child:1" := by
    decide +kernel
  have grandchild : (orphaned.entries.find? 2).any fun e =>
      e.request.parentSessionId = "root:child:1" ∧ e.status.terminal = false := by decide +kernel
  have untouched : ((orphaned.cancelParent "root" "stop").entries.find? 2).any fun e =>
      e.aborted = none ∧ e.status = .running := by decide +kernel
  obtain ⟨mid,first,top⟩ := (Option.any_eq_true _ _).mp child
  obtain ⟨e,second,open_⟩ := (Option.any_eq_true _ _).mp grandchild
  obtain ⟨e',after,same⟩ := (Option.any_eq_true _ _).mp untouched
  simp only [Bool.decide_and,Bool.and_eq_true,decide_eq_true_eq] at top open_ same
  have descendant : Descendant orphaned (fun _ => True) "root" e :=
    .under (.child (Table.mem_of_find? first) top.1) trivial (Table.mem_of_find? second) (open_.1.trans top.2.symm)
  obtain ⟨new,found,cancelled⟩ := left e descendant open_.2
  rw [Table.key_of_find? second,after,Option.some.injEq] at found
  subst found
  rcases cancelled with aborted | over_
  · exact aborted same.1
  · simp [same.2] at over_

end Sample

end RatifyOs.Autonomy.Delegation
