import RatifyOs.Storage.Lineage

/-! Branches of sessions: what a branch shows of its ancestors stays as it was. -/
namespace RatifyOs.Storage
open Data Async Async.Shared

/-- What the foreign keys and the order of the insertions keep: a message has its session, a
branch its branch point, and a parent was there before its branches, all under a name. -/
structure Linked (d : SessionTables) : Prop where
  owned : ∀ m ∈ d.messages.table.rows, (d.sessions.find? m.sessionId).isSome
  pointed : ∀ r ∈ d.sessions.rows, ∀ b ∈ r.branch, d.messages.has b.1 b.2
  earlier : ∀ before r after, d.sessions.rows = before ++ r :: after → ∀ b ∈ r.branch, b.1 ∈ before.map SessionRow.id
  named : ∀ r ∈ d.sessions.rows, ∀ b ∈ r.branch, b.1 ≠ "" ∧ b.2 ≠ ""

/-- A session is created under a parent, and at a message, that have a name. -/
def Stmt.Named : Stmt → Prop
  | .insertSession i _ => i.parentSessionId ≠ some "" ∧ i.parentMessageId ≠ some ""
  | _ => True

section Keep
variable {d d' : SessionTables}

theorem has_of_grown {t u : Messages} (grown : t.table.rows <+: u.table.rows) {session message : String}
    (has : t.has session message) : u.has session message := by
  unfold Messages.has at has ⊢
  cases found : t.table.find? message with
  | none => simp [found] at has
  | some m =>
    rw [find?_of_grown grown found]
    simpa [found] using has

theorem Linked.of_eq (linked : Linked d) (sessions : d'.sessions = d.sessions) (messages : d'.messages = d.messages) :
    Linked d' := by
  obtain ⟨owned,pointed,earlier,named⟩ := linked
  exact ⟨by rwa [sessions,messages],by rwa [sessions,messages],by rwa [sessions],by rwa [sessions]⟩

theorem exists_of_has {t : Messages} {session message : String} (has : t.has session message) :
    ∃ m ∈ t.table.rows, m.id = message ∧ m.sessionId = session := by
  unfold Messages.has at has
  cases found : t.table.find? message with
  | none => simp [found] at has
  | some m => exact ⟨m,Table.mem_of_find? found,Table.key_of_find? found,by simpa [found] using has⟩

theorem Linked.parent (linked : Linked d) {session message : String} (has : d.messages.has session message) :
    session ∈ d.sessions.rows.map SessionRow.id := by
  obtain ⟨m,inside,_,rfl⟩ := exists_of_has has
  obtain ⟨r,found⟩ := Option.isSome_iff_exists.mp (linked.owned m inside)
  exact List.mem_map.mpr ⟨r,Table.mem_of_find? found,Table.key_of_find? found⟩

theorem insertMessage_linked (linked : Linked d) {i : NewMessage} (ok : d.insertMessage i = .ok d') : Linked d' := by
  unfold SessionTables.insertMessage at ok
  split at ok
  · cases ok
    exact linked
  · rename_i messages added
    split at ok
    · rename_i there
      cases ok
      have grown : d.messages.table.rows <+: messages.table.rows := ⟨_,(add?_rows added).symm⟩
      refine ⟨?_,fun r inside b branch => has_of_grown grown (linked.pointed r inside b branch),linked.earlier,linked.named⟩
      intro m inside
      change m ∈ messages.table.rows at inside
      rw [add?_rows added,List.mem_append,List.mem_singleton] at inside
      obtain old | rfl := inside
      · exact linked.owned m old
      · exact there
    · cases ok

/-- Where a row stands once another is added behind it. -/
theorem split_append {α : Type} {rows before after : List α} {x y : α} (split : rows ++ [x] = before ++ y :: after) :
    y = x ∧ before = rows ∨ ∃ after', rows = before ++ y :: after' := by
  obtain rfl | ⟨after',z,rfl⟩ := List.eq_nil_or_concat after
  · obtain ⟨rfl,same⟩ := List.append_inj' split rfl
    exact .inl ⟨(List.cons.inj same).1.symm,rfl⟩
  · rw [List.concat_eq_append,← List.cons_append,← List.append_assoc] at split
    exact .inr ⟨after',(List.append_inj' split rfl).1⟩

theorem insertSession_linked (linked : Linked d) {i : NewSession} {at_ : ℤ} (named : Stmt.Named (.insertSession i at_))
    (ok : d.insertSession i at_ = .ok d') : Linked d' := by
  obtain ⟨branch,checked,ok⟩ := Result.bind_eq_ok.mp ok
  obtain ⟨sessions,inserted,ok⟩ := Result.bind_eq_ok.mp ok
  cases ok
  obtain rfl | ⟨added,references⟩ := insertOrIgnore_ok inserted
  · exact linked
  have rows := (Table.insert?_eq_some_iff.mp added).2
  have pointed : ∀ b ∈ branch, d.messages.has b.1 b.2 := by
    rintro b rfl
    simpa using references
  have names : ∀ b ∈ branch, b.1 ≠ "" ∧ b.2 ≠ "" := by
    rintro b rfl
    obtain ⟨session,message⟩ := parents_of_branchOf checked
    exact ⟨fun empty => named.1 (by simp [← session,empty]),fun empty => named.2 (by simp [← message,empty])⟩
  refine ⟨?_,?_,?_,?_⟩
  · intro m inside
    obtain ⟨r,found⟩ := Option.isSome_iff_exists.mp (linked.owned m inside)
    change (sessions.find? m.sessionId).isSome
    rw [find?_of_grown ⟨_,rows.symm⟩ found]
    rfl
  · intro r inside b point
    change r ∈ sessions.rows at inside
    rw [rows,List.mem_append,List.mem_singleton] at inside
    obtain old | rfl := inside
    · exact linked.pointed r old b point
    · exact pointed b point
  · intro before r after split b point
    change sessions.rows = _ at split
    rw [rows] at split
    obtain ⟨rfl,rfl⟩ | ⟨after',split⟩ := split_append split
    · exact linked.parent (pointed b point)
    · exact linked.earlier before r after' split b point
  · intro r inside b point
    change r ∈ sessions.rows at inside
    rw [rows,List.mem_append,List.mem_singleton] at inside
    obtain old | rfl := inside
    · exact linked.named r old b point
    · exact names b point

def Stmt.Elsewhere : Stmt → Prop
  | .insertSession _ _ | .insertMessage _ => False
  | _ => True

theorem written_frame {result : Except SessionError SessionTables}
    (frame : ∀ d', result = .ok d' → d'.sessions = d.sessions ∧ d'.messages = d.messages) :
    (written d result).2.sessions = d.sessions ∧ (written d result).2.messages = d.messages := by
  cases result with
  | ok d' => exact frame d' rfl
  | error e => exact ⟨rfl,rfl⟩

theorem meaning_frame (now : ℤ) {stmt : Stmt} (elsewhere : stmt.Elsewhere) (d : SessionTables) :
    (meaning now stmt d).2.sessions = d.sessions ∧ (meaning now stmt d).2.messages = d.messages := by
  cases stmt with
  | insertSession i createdAt => exact elsewhere.elim
  | insertMessage i => exact elsewhere.elim
  | insertRun i =>
    refine written_frame fun d' ok => ?_
    unfold SessionTables.insertRun at ok
    split at ok
    · cases ok
    · obtain ⟨runs,_,ok⟩ := Result.bind_eq_ok.mp ok
      cases ok
      exact ⟨rfl,rfl⟩
  | updateRun id status finishedAt =>
    simp only [meaning,SessionTables.updateRun]
    split
    · split <;> exact ⟨rfl,rfl⟩
    · exact ⟨rfl,rfl⟩
  | insertEvidence r =>
    refine written_frame fun d' ok => ?_
    obtain ⟨evidence,_,ok⟩ := Result.bind_eq_ok.mp ok
    cases ok
    exact ⟨rfl,rfl⟩
  | insertToolCall r =>
    refine written_frame fun d' ok => ?_
    obtain ⟨toolCalls,_,ok⟩ := Result.bind_eq_ok.mp ok
    cases ok
    exact ⟨rfl,rfl⟩
  | insertToolResult r =>
    refine written_frame fun d' ok => ?_
    obtain ⟨toolResults,_,ok⟩ := Result.bind_eq_ok.mp ok
    cases ok
    exact ⟨rfl,rfl⟩
  | now => exact ⟨rfl,rfl⟩
  | selectSession id => exact ⟨rfl,rfl⟩
  | selectMessage id => exact ⟨rfl,rfl⟩
  | selectRun id => exact ⟨rfl,rfl⟩
  | selectEvidence id => exact ⟨rfl,rfl⟩
  | selectToolExchange id => exact ⟨rfl,rfl⟩

theorem elsewhere_or (stmt : Stmt) :
    (∃ i at_, stmt = .insertSession i at_) ∨ (∃ i, stmt = .insertMessage i) ∨ stmt.Elsewhere := by
  cases stmt with
  | insertSession i at_ => exact .inl ⟨i,at_,rfl⟩
  | insertMessage i => exact .inr (.inl ⟨i,rfl⟩)
  | _ => exact .inr (.inr trivial)

theorem meaning_linked (now : ℤ) {stmt : Stmt} (linked : Linked d) (named : stmt.Named) : Linked (meaning now stmt d).2 := by
  have kept {result : Except SessionError SessionTables} (keeps : ∀ d', result = .ok d' → Linked d') :
      Linked (written d result).2 := by
    cases result with
    | ok d' => exact keeps d' rfl
    | error e => exact linked
  obtain ⟨i,at_,rfl⟩ | ⟨i,rfl⟩ | elsewhere := elsewhere_or stmt
  · exact kept fun _ => insertSession_linked linked named
  · exact kept fun _ => insertMessage_linked linked
  · obtain ⟨sessions,messages⟩ := meaning_frame now elsewhere d
    exact linked.of_eq sessions messages

/-- A statement adds a message to no session but its own. -/
theorem meaning_of (now : ℤ) {stmt : Stmt} {id : String} (other : ∀ i, stmt = .insertMessage i → i.sessionId ≠ id) (d : SessionTables) :
    (meaning now stmt d).2.messages.of id = d.messages.of id := by
  have kept {result : Except SessionError SessionTables} (keeps : ∀ d', result = .ok d' → d'.messages.of id = d.messages.of id) :
      (written d result).2.messages.of id = d.messages.of id := by
    cases result with
    | ok d' => exact keeps d' rfl
    | error e => rfl
  obtain ⟨i,at_,rfl⟩ | ⟨i,rfl⟩ | elsewhere := elsewhere_or stmt
  · refine kept fun d' ok => ?_
    obtain ⟨branch,_,ok⟩ := Result.bind_eq_ok.mp ok
    obtain ⟨sessions,_,ok⟩ := Result.bind_eq_ok.mp ok
    cases ok
    rfl
  · refine kept fun d' ok => ?_
    unfold SessionTables.insertMessage at ok
    split at ok
    · cases ok
      rfl
    · rename_i messages added
      split at ok
      · cases ok
        simp [Messages.of,Table.select,add?_rows added,other i rfl]
      · cases ok
  · rw [(meaning_frame now elsewhere d).2]

end Keep

section Lines
variable {d : SessionTables}

theorem exists_point {session message : String} (has : d.messages.has session message) :
    ∃ head b tail, d.messages.of session = head ++ b :: tail ∧ b.id = message ∧ ∀ m ∈ head, m.id ≠ message := by
  obtain ⟨b,inside,point,owner⟩ := exists_of_has has
  have own : b ∈ d.messages.of session := Table.mem_select.mpr ⟨inside,by simpa using owner⟩
  obtain ⟨head,tail,split⟩ := List.append_of_mem own
  refine ⟨head,b,tail,split,point,fun m early same => ?_⟩
  have distinct : ((d.messages.of session).map Message.id).Nodup :=
    d.messages.table.distinct.sublist (List.filter_sublist.map Message.id)
  rw [split,List.map_append,List.map_cons,List.nodup_middle,List.nodup_cons] at distinct
  exact distinct.1 (List.mem_append_left _ (List.mem_map.mpr ⟨m,early,same.trans point.symm⟩))

theorem fresh_of_split {before after : List SessionRow} {r : SessionRow} (split : d.sessions.rows = before ++ r :: after) :
    r.id ∉ before.map SessionRow.id := by
  have distinct := d.sessions.distinct
  rw [split,List.map_append,List.map_cons,List.nodup_middle,List.nodup_cons] at distinct
  exact fun inside => distinct.1 (List.mem_append_left _ inside)

theorem nodup_concat {line : List Session} {r : SessionRow} {ids : List String} (distinct : (line.map Session.id).Nodup)
    (within : line.map Session.id ⊆ ids) (fresh : r.id ∉ ids) : ((line ++ [sessionOf r]).map Session.id).Nodup := by
  rw [List.map_append,List.nodup_append]
  refine ⟨distinct,by simp,fun x inside y last same => ?_⟩
  obtain rfl : y = r.id := by simpa [sessionOf] using last
  exact fresh (same ▸ within inside)

/-- Every session has a line, along the sessions that were there before it. -/
theorem Linked.exists_line (linked : Linked d) (n : ℕ) : ∀ before r after, before.length = n → d.sessions.rows = before ++ r :: after →
    ∃ line messages, d.Line r line messages ∧ (line.map Session.id).Nodup ∧ line.map Session.id ⊆ before.map SessionRow.id ∧
      line.length ≤ n := by
  induction n using Nat.strong_induction_on with
  | _ n ih =>
    intro before r after length split
    cases branch : r.branch with
    | none => exact ⟨[],[],.root branch,by simp,by simp,Nat.zero_le _⟩
    | some b =>
      obtain ⟨session,message⟩ := b
      have inside : r ∈ d.sessions.rows := split ▸ List.mem_append_right _ List.mem_cons_self
      obtain ⟨parent,there,rfl⟩ := List.mem_map.mp (linked.earlier before r after split _ branch)
      obtain ⟨first,rest,parts⟩ := List.append_of_mem there
      have earlier : first.length < n := by rw [← length,parts]; simp
      have split' : d.sessions.rows = first ++ parent :: (rest ++ r :: after) := by rw [split,parts]; simp
      obtain ⟨line,messages,here,distinct,within,short⟩ := ih _ earlier first parent _ rfl split'
      obtain ⟨head,b,tail,own,point,once⟩ := exists_point (linked.pointed r inside _ branch)
      have found : d.sessions.find? parent.id = some parent := Table.find?_of_mem (split' ▸ List.mem_append_right _ List.mem_cons_self)
      refine ⟨line ++ [sessionOf parent],_,.branch branch (linked.named r inside _ branch) found here own point once,
        nodup_concat distinct within (fresh_of_split split'),?_,?_⟩
      · rw [List.map_append,parts,List.map_append]
        refine List.append_subset.mpr ⟨fun x early => List.mem_append_left _ (within early),?_⟩
        simp [sessionOf]
      · rw [List.length_append]
        exact Nat.succ_le_of_lt (Nat.lt_of_le_of_lt short earlier)

theorem Linked.line (linked : Linked d) {r : SessionRow} (inside : r ∈ d.sessions.rows) :
    ∃ line messages, d.Line r line messages ∧ SessionTables.Simple d r line := by
  obtain ⟨before,after,split⟩ := List.append_of_mem inside
  obtain ⟨line,messages,here,distinct,within,short⟩ := linked.exists_line _ before r after rfl split
  refine ⟨line,messages,here,nodup_concat distinct within (fresh_of_split split),?_⟩
  rw [split,List.length_append,List.length_cons]
  omega

/-- What a session shows: its own messages in their order, after those its parent shows up to
the message it branches off at. -/
structure Shows (d : SessionTables) (r : SessionRow) (view : List Message) : Prop where
  shown : d.getMessages r.id true = some (.ok view)
  whole : r.branch = none → view = d.messages.of r.id
  cut : ∀ session message, r.branch = some (session,message) → ∃ head b tail,
    d.getMessages session true = some (.ok (head ++ b :: tail)) ∧ b ∈ d.messages.of session ∧ b.id = message ∧
      (∀ m ∈ head, m.id ≠ message) ∧ view = head ++ b :: d.messages.of r.id

theorem Linked.shows (linked : Linked d) {r : SessionRow} (inside : r ∈ d.sessions.rows) : ∃ view, Shows d r view := by
  obtain ⟨line,messages,here,simple⟩ := linked.line inside
  refine ⟨_,here.getMessages simple (Table.find?_of_mem inside),?_,?_⟩
  · intro whole
    cases here with
    | root _ => rfl
    | branch branch => simp [whole] at branch
  · intro session message branch
    cases here with
    | root whole => simp [whole] at branch
    | @branch _ parent session' message' line before head b tail branch' named found earlier split point first =>
      rw [branch'] at branch
      cases branch
      have simple' : SessionTables.Simple d parent line := by
        refine ⟨?_,by simpa using Nat.lt_of_succ_lt (by simpa using simple.2)⟩
        have distinct := simple.1
        rw [List.map_append] at distinct
        exact (List.nodup_append.mp distinct).1
      obtain rfl : parent.id = session := Table.key_of_find? found
      have above := earlier.getMessages simple' found
      rw [split] at above
      refine ⟨before ++ head,b,tail,by rw [above,List.append_assoc],?_,point,?_,by simp⟩
      · rw [split]
        simp
      · intro m there same
        obtain old | own := List.mem_append.mp there
        · obtain ⟨stored,owner⟩ := earlier.members m old
          have point' : b ∈ d.messages.of parent.id := by rw [split]; simp
          obtain ⟨stored',owner'⟩ := SessionTables.mem_of point'
          obtain rfl : m = b := List.inj_on_of_nodup_map d.messages.table.distinct stored stored' (same.trans point.symm)
          have distinct := simple'.1
          rw [List.map_append,List.nodup_append] at distinct
          exact distinct.2.2 _ owner _ (by simp [sessionOf]) owner'
        · exact first m own same

end Lines

theorem Linked.empty : Linked .empty where
  owned := by simp [SessionTables.empty,Messages.empty]
  pointed := by simp [SessionTables.empty]
  earlier := by simp [SessionTables.empty]
  named := by simp [SessionTables.empty]

/-- No empty string is passed for a parent session or a branch message. -/
def Request.Named : Request → Prop
  | .createSession i => i.parentSessionId ≠ some "" ∧ i.parentMessageId ≠ some ""
  | _ => True

section Performs
open SessionStore

theorem performs_query {stmt : Stmt} (named : stmt.Named) : Performs Stmt.Named (query stmt) := performs_call named

theorem getToolExchange_performs (id : String) : Performs Stmt.Named (getToolExchange id) := by
  refine performs_bind (performs_query trivial) fun found => ?_
  obtain _ | ⟨c,_ | r⟩ := found
  · trivial
  · exact performs_bind performs_ofOption fun _ => trivial
  · refine performs_bind performs_ofOption fun _ => performs_bind ?_ fun _ => trivial
    exact performs_bind performs_ofOption fun _ => trivial

/-- A request creates no session but the one it was passed. -/
theorem Request.performs (sha256 : Text → String) {q : Request} (named : q.Named) : Performs Stmt.Named (q.program sha256) := by
  cases q with
  | createSession i =>
    refine performs_bind ?_ fun _ => trivial
    have inserts (at_ : ℤ) : Performs Stmt.Named (query (.insertSession i at_)) := performs_query named
    unfold SessionStore.createSession
    cases i.createdAt with
    | some at_ =>
      refine performs_bind trivial fun at_ => performs_bind (inserts at_) fun _ => ?_
      refine performs_bind (performs_bind (performs_query trivial) fun _ => trivial) fun _ => ?_
      exact performs_bind performs_ofOption fun _ => performs_bind performs_reject fun _ => trivial
    | none =>
      refine performs_bind (performs_query trivial) fun at_ => performs_bind (inserts at_) fun _ => ?_
      refine performs_bind (performs_bind (performs_query trivial) fun _ => trivial) fun _ => ?_
      exact performs_bind performs_ofOption fun _ => performs_bind performs_reject fun _ => trivial
  | appendMessage i =>
    refine performs_bind (performs_bind (performs_query trivial) fun _ => ?_) fun _ => trivial
    refine performs_bind (performs_query trivial) fun _ => ?_
    exact performs_bind performs_ofOption fun _ => performs_bind performs_reject fun _ => trivial
  | createRun i =>
    refine performs_bind (performs_bind (performs_query trivial) fun _ => ?_) fun _ => trivial
    refine performs_bind (performs_bind (performs_query trivial) fun _ => trivial) fun _ => ?_
    exact performs_bind performs_ofOption fun _ => performs_bind performs_reject fun _ => trivial
  | finishRun id status finishedAt =>
    refine performs_bind (performs_bind (performs_bind (performs_query trivial) fun _ => trivial) fun _ => ?_) fun _ => trivial
    refine performs_bind performs_ofOption fun old => ?_
    cases old.finishedAt with
    | some time => exact performs_bind performs_reject fun _ => trivial
    | none => exact performs_bind (performs_query trivial) fun _ => performs_bind (performs_query trivial) fun _ => trivial
  | recordFinancialEvidence id payload distinct createdAt =>
    refine performs_bind (performs_bind (performs_query trivial) fun _ => ?_) fun _ => trivial
    refine performs_bind (performs_query trivial) fun _ => performs_bind performs_ofOption fun _ => ?_
    exact performs_bind performs_reject fun _ => performs_bind performs_ofOption fun _ => trivial
  | recordToolCall i distinct =>
    refine performs_bind (performs_bind (performs_query trivial) fun _ => ?_) fun _ => trivial
    refine performs_bind (getToolExchange_performs i.id) fun _ => ?_
    exact performs_bind performs_ofOption fun _ => performs_bind performs_reject fun _ => trivial
  | recordToolResult i distinct =>
    refine performs_bind (performs_bind (performs_query trivial) fun _ => ?_) fun _ => trivial
    refine performs_bind (getToolExchange_performs i.toolCallId) fun _ => ?_
    exact performs_bind performs_ofOption fun _ => performs_bind performs_reject fun _ => trivial

end Performs

namespace SessionStore
variable {sha256 : Text → String}

/-- No session is created with an empty string for its parent or its branch message. -/
def Named (event : Shared.Event Request ℤ) : Prop := ∀ q, event = .start q → q.Named

def Appends (id : String) (c : Calls) : Shared.Event Request ℤ → Prop
  | .perform i _ =>
    match c.calls i with
    | some ⟨_,.perform (.insertMessage m) _,_⟩ => m.sessionId = id
    | _ => False
  | _ => False

/-- What holds of the data and the calls, whatever comes next. -/
structure Kept (c : Calls) : Prop where
  linked : Linked c.state
  allowed : Allowed Stmt.Named c

theorem Kept.step {c : Calls} {event : Shared.Event Request ℤ} (named : Named event) (kept : Kept c) : Kept (step sha256 c event) := by
  refine ⟨?_,kept.allowed.step fun q start => q.performs sha256 (named q start)⟩
  cases event with
  | start q => exact kept.linked
  | die i => exact kept.linked
  | perform i now =>
    simp only [SessionStore.step,Shared.step]
    split
    · rename_i found
      exact meaning_linked now kept.linked (kept.allowed.performed found)
    · exact kept.linked

theorem run_kept {events : List (Shared.Event Request ℤ)} (named : ∀ event ∈ events, Named event) : Kept (run sha256 events) := by
  apply Run.invariant (fun c event => Kept.step) _ (Run.Meets.of_forall named _)
  exact ⟨Linked.empty,fun i call found => by cases found⟩

/-- A step that adds no message to the session leaves its messages as they are. -/
theorem step_of {c : Calls} {event : Shared.Event Request ℤ} {id : String} (silent : ¬Appends id c event) :
    (step sha256 c event).state.messages.of id = c.state.messages.of id := by
  cases event with
  | start q => rfl
  | die i => rfl
  | perform i now =>
    simp only [SessionStore.step,Shared.step]
    split
    · rename_i args stmt next earlier found
      apply meaning_of
      rintro m rfl same
      exact silent (by simpa only [Appends,found] using same)
    · rfl

theorem step_extends (c : Calls) (event : Shared.Event Request ℤ) : Extends c.state (step sha256 c event).state :=
  (moves_step order trivial event).1

theorem run_later (c : Calls) (later : List (Shared.Event Request ℤ)) : Extends c.state (Run.run (step sha256) c later).state := by
  induction later generalizing c with
  | nil => exact Extends.refl _
  | cons event later ih => exact (step_extends c event).trans (ih _)

theorem run_of {c : Calls} {later : List (Shared.Event Request ℤ)} {id : String}
    (silent : Run.Meets (step sha256) (fun c event => ¬Appends id c event) c later) :
    (Run.run (step sha256) c later).state.messages.of id = c.state.messages.of id := by
  induction later generalizing c with
  | nil => rfl
  | cons event later ih => exact (ih silent.2).trans (step_of silent.1)

/-- Where no parent and no branch message is an empty string: what a session shows ends, and is
what its parent shows up to the branch message, then its own messages in their order; and
nothing that comes later changes it but a message of its own. -/
theorem branches_isolated {events : List (Shared.Event Request ℤ)} (named : ∀ event ∈ events, Named event) {r : SessionRow}
    (inside : r ∈ (run sha256 events).state.sessions.rows) :
    ∃ view, Shows (run sha256 events).state r view ∧
      ∀ later, Run.Meets (step sha256) (fun c event => ¬Appends r.id c event) (run sha256 events) later →
        (run sha256 (events ++ later)).state.getMessages r.id true = some (.ok view) := by
  have kept : Kept (run sha256 events) := run_kept named
  obtain ⟨view,shows⟩ := kept.linked.shows inside
  refine ⟨view,shows,fun later silent => ?_⟩
  obtain ⟨line,before,here,simple⟩ := kept.linked.line inside
  have extended : Extends _ (Run.run (step sha256) (run sha256 events) later).state := run_later _ later
  have there : (run sha256 events).state.sessions.find? r.id = some r := Table.find?_of_mem inside
  have again := (here.later extended).getMessages ⟨simple.1,Nat.lt_of_lt_of_le simple.2 extended.sessions.length_le⟩
    (find?_of_grown extended.sessions there)
  rw [run,Run.run_append]
  rw [run_of silent] at again
  exact again.trans ((here.getMessages simple there).symm.trans shows.shown)

namespace Sample

def created (id : String) (branch : Option (String × String)) (call : ℕ) : List (Shared.Event Request ℤ) :=
  .start (.createSession ⟨id,none,branch.map Prod.fst,branch.map Prod.snd,some 1⟩) :: performed call [1,1]

def appended (id sessionId : String) (call : ℕ) : List (Shared.Event Request ℤ) :=
  .start (.appendMessage ⟨id,sessionId,.user,"text",1⟩) :: performed call [1,1]

/-- A session with a message, and a branch at it. -/
def branched : List (Shared.Event Request ℤ) := created "s" none 0 ++ appended "m" "s" 1 ++ created "t" (some ("s","m")) 2

theorem branches_isolated_branched : ∃ view, Shows (run (fun _ => "") branched).state ⟨"t",none,some ("s","m"),1⟩ view := by
  have inside : (⟨"t",none,some ("s","m"),1⟩ : SessionRow) ∈ (run (fun _ => "") branched).state.sessions.rows := .tail _ (.head _)
  have named : ∀ event ∈ branched, Named event := by
    rintro _ inside q rfl
    simp [branched,created,appended,performed] at inside
    obtain rfl | rfl | rfl := inside <;> simp [Request.Named]
  obtain ⟨view,shows,_⟩ := branches_isolated named inside
  exact ⟨view,shows⟩

/-- A branch of a session without a name, and one at a message without a name. -/
def nameless : List (Shared.Event Request ℤ) := created "" none 0 ++ appended "m" "" 1 ++ created "t" (some ("","m")) 2 ++
  created "s" none 3 ++ appended "" "s" 4 ++ created "u" (some ("s","")) 5

/-- The one shows nothing of its parent; what the other shows is changed by what its parent says
later. -/
theorem nameless_run : (∃ r ∈ (run (fun _ => "") nameless).state.sessions.rows, ∀ view, ¬Shows (run (fun _ => "") nameless).state r view) ∧
    (run (fun _ => "") (nameless ++ appended "n" "s" 6)).state.getMessages "u" true ≠
      (run (fun _ => "") nameless).state.getMessages "u" true := by
  constructor
  · refine ⟨⟨"t",none,some ("","m"),1⟩,.tail _ (.head _),fun view shows => ?_⟩
    have shown : (run (fun _ => "") nameless).state.getMessages "t" true = some (.ok []) := rfl
    obtain ⟨head,b,tail,_,_,_,_,same⟩ := shows.cut _ _ rfl
    have empty : [] = view := Except.ok.inj (Option.some.inj (shown.symm.trans shows.shown))
    simp [← empty] at same
  · have before : (run (fun _ => "") nameless).state.getMessages "u" true = some (.ok [⟨"","s",.user,"text",1,2⟩]) := rfl
    have after : (run (fun _ => "") (nameless ++ appended "n" "s" 6)).state.getMessages "u" true =
        some (.ok [⟨"","s",.user,"text",1,2⟩,⟨"n","s",.user,"text",1,3⟩]) := rfl
    simp [before,after]

end Sample

end SessionStore

end RatifyOs.Storage
