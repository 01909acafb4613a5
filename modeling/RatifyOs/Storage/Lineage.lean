import RatifyOs.Storage.Retries

/-! Calls on one database of sessions, their statements in any order. -/
namespace RatifyOs.Storage
open Data Async Async.Shared

namespace SessionStore
variable (sha256 : Text → String)

/-- The calls on a database, whatever their connections. -/
abbrev Calls := Site Stmt StmtAnswer SessionError Record Request SessionTables

def step (c : Calls) (event : Shared.Event Request ℤ) : Calls := Shared.step (Request.program sha256) meaning c event

def run (events : List (Shared.Event Request ℤ)) : Calls := Run.run (step sha256) (Site.initial .empty) events

/-- No two completions of a run come between one another, and a call is repeated as it was
made. -/
def Careful (c : Calls) (event : Shared.Event Request ℤ) : Prop := Fitting Request.Uncontended Request.Repeatable c event

end SessionStore

theorem order : Order meaning Extends (fun _ => True) (fun q d => Request.Stored d q) where
  refl := Extends.refl
  trans _ _ _ := Extends.trans
  moves now stmt d _ := ⟨meaning_extends now stmt d,trivial⟩
  stays _ _ _ stored later := stored.stays later

theorem Request.relies (sha256 : Text → String) (q : Request) (d : SessionTables) :
    (q.program sha256).holds (rely q.Uncontended) (fun record d => q.Passed record ∧ Request.Stored d q) (fun error _ => q.Thrown error)
      d := by
  cases q with
  | createSession i => exact (Program.holds_bind _ _).mpr (createSession_relies i)
  | appendMessage i => exact (Program.holds_bind _ _).mpr (appendMessage_relies i)
  | createRun i => exact (Program.holds_bind _ _).mpr (createRun_relies i)
  | finishRun id status finishedAt => exact (Program.holds_bind _ _).mpr (finishRun_relies id status finishedAt)
  | recordFinancialEvidence id payload distinct createdAt =>
    exact (Program.holds_bind _ _).mpr (recordFinancialEvidence_relies sha256 id payload distinct createdAt)
  | recordToolCall i distinct => exact (Program.holds_bind _ _).mpr (recordToolCall_relies i distinct)
  | recordToolResult i distinct => exact (Program.holds_bind _ _).mpr (recordToolResult_relies i distinct)

theorem Request.rests (sha256 : Text → String) (q : Request) (d : SessionTables) (stored : Request.Stored d q) :
    q.Rests (q.program sha256) d := by
  cases q with
  | createSession i => exact (Program.holds_bind _ _).mpr (createSession_rests stored)
  | appendMessage i => exact (Program.holds_bind _ _).mpr (appendMessage_rests stored)
  | createRun i => exact (Program.holds_bind _ _).mpr (createRun_rests stored)
  | finishRun id status finishedAt => exact (Program.holds_bind _ _).mpr (finishRun_rests stored)
  | recordFinancialEvidence id payload distinct createdAt =>
    exact (Program.holds_bind _ _).mpr (recordFinancialEvidence_rests sha256 stored)
  | recordToolCall i distinct => exact (Program.holds_bind _ _).mpr (recordToolCall_rests stored)
  | recordToolResult i distinct => exact (Program.holds_bind _ _).mpr (recordToolResult_rests stored)

namespace SessionStore
variable {sha256 : Text → String} {events : List (Shared.Event Request ℤ)}

theorem run_sound (careful : Run.Meets (step sha256) Careful (Site.initial .empty) events) :
    Sound meaning Request.Uncontended Request.Repeatable Extends (fun _ => True) Request.Passed Request.Thrown
      (fun q d => Request.Stored d q) (run sha256 events) :=
  Sound.run order (fun q d _ => q.relies sha256 d) (fun q d _ stored => q.rests sha256 d stored) (Sound.initial trivial) careful

/-- Where no two completions of a run come between one another and calls are repeated as they
were made: a call that ends has returned the record it was passed, or has thrown its conflict,
a constraint that failed or that there is no such run; one that is repeated after it has
returned does not throw and changes nothing; and nothing that is recorded changes, but for a
run that ends. -/
theorem write_once (careful : Run.Meets (step sha256) Careful (Site.initial .empty) events) :
    (∀ i call, (run sha256 events).calls i = some call →
      (∀ record, call.script = .pure record → call.args.Passed record) ∧ ∀ error, call.script = .throw error → call.args.Thrown error) ∧
      (∀ i call, (run sha256 events).calls i = some call → call.args ∈ call.earlier →
        (∀ error, call.script ≠ .throw error) ∧ ∀ now, Careful (run sha256 events) (.perform i now) →
          (step sha256 (run sha256 events) (.perform i now)).state = (run sha256 events).state) ∧
      ∀ event, Extends (run sha256 events).state (step sha256 (run sha256 events) event).state := by
  have sound := run_sound careful
  refine ⟨fun i call found => ?_,fun i call found known => ?_,fun event => (moves_step order sound.valid event).1⟩
  · have obeys := sound.obeys i call found
    refine ⟨fun record returned => ?_,fun error thrown => ?_⟩
    · rw [returned] at obeys
      exact obeys.1
    · rw [thrown] at obeys
      exact obeys
  · refine ⟨fun error thrown => ?_,fun now fitting => sound.quiet order found known fitting⟩
    have repeats := sound.repeats i call found known
    rw [thrown] at repeats
    exact repeats

namespace Sample

def session : Request := .createSession ⟨"s",none,none,none,none⟩

def performed (call : ℕ) (times : List ℤ) : List (Shared.Event Request ℤ) := times.map (.perform call)

/-- A session that is created twice, at one time. -/
def twice : List (Shared.Event Request ℤ) := .start session :: performed 0 [7,7,7] ++ .start session :: performed 1 [7,7,7]

theorem twice_careful (sha256 : Text → String) : Run.Meets (step sha256) Careful (Site.initial .empty) twice := by
  refine ⟨trivial,⟨trivial,fun known => nomatch known⟩,⟨trivial,fun _ => trivial⟩,⟨trivial,fun _ => trivial⟩,trivial,
    ⟨trivial,fun _ r found => ?_⟩,⟨trivial,fun _ => trivial⟩,⟨trivial,fun _ => trivial⟩,trivial⟩
  cases found
  rfl

theorem write_once_twice : session.Passed (.session ⟨"s",none,none,none,7⟩) ∧
    ∀ error, (.pure (.session ⟨"s",none,none,none,7⟩) : SessionProgram Record) ≠ .throw error := by
  have ended : (run (fun _ => "") twice).calls 1 = some ⟨session,.pure (.session ⟨"s",none,none,none,7⟩),[session]⟩ := rfl
  obtain ⟨passed,repeated,_⟩ := write_once (twice_careful fun _ => "")
  exact ⟨(passed 1 _ ended).1 _ rfl,(repeated 1 _ ended (.head _)).1⟩

/-- A session and a run are created, and the run is ended twice at once; then both are created
once more. -/
def contended : List (Shared.Event Request ℤ) :=
  .start session :: performed 0 [1,1,1] ++ .start (.createRun ⟨"r","s",.running,1⟩) :: performed 1 [1,1] ++
    .start (.finishRun "r" .completed 5) :: .start (.finishRun "r" .failed 6) :: performed 2 [5] ++ performed 3 [6] ++
    performed 2 [5,5] ++ performed 3 [6,6] ++ .start (.createRun ⟨"r","s",.running,1⟩) :: performed 4 [7,7] ++
    .start session :: performed 5 [8,8,8]

/-- The completion that loses is told the other one's end; the run that has ended and the
session that had no time of its own are not created once more. -/
theorem contended_run :
    (∃ call record, (run (fun _ => "") contended).calls 3 = some call ∧ call.script = .pure record ∧ ¬call.args.Passed record) ∧
      (∃ call error, (run (fun _ => "") contended).calls 4 = some call ∧ call.args ∈ call.earlier ∧ call.script = .throw error) ∧
      ∃ call error, (run (fun _ => "") contended).calls 5 = some call ∧ call.args ∈ call.earlier ∧ call.script = .throw error := by
  refine ⟨⟨_,_,rfl,rfl,?_⟩,⟨_,_,rfl,.tail _ (.tail _ (.head _)),rfl⟩,⟨_,_,rfl,.tail _ (.tail _ (.tail _ (.head _))),rfl⟩⟩
  rintro ⟨_,status,_⟩
  cases status

end Sample

end SessionStore

/-! `getMessages` with the messages of the ancestors, each as far as its branch point. -/
open Data Async

namespace SessionTables
variable (d : SessionTables)

/-- `getSession` -/
def session (id : String) : Option Session := (d.sessions.find? id).map sessionOf

/-- `while(s)`, so many times at most; `none` if that is not often enough. -/
def lineage : ℕ → Option Session → List String → List Session → Option (Except String (List Session))
  | _, none, _, line => some (.ok line)
  | 0, some _, _, _ => none
  | fuel + 1, some s, seen, line =>
    if s.id ∈ seen then some (.error "Session lineage cycle")
    else lineage fuel ((s.parentSessionId.filter (· ≠ "")).bind d.session) (s.id :: seen) (s :: line)

/-- What a session of the line adds, up to where the next one branches off. -/
def piece (x : Session) (next : Option Session) : Except String (List Message) :=
  let rows := d.messages.of x.id
  match (next.bind Session.parentMessageId).filter (· ≠ "") with
  | some cut =>
    match rows.findIdx? fun m => m.id = cut with
    | none => .error "Missing branch point"
    | some p => .ok (rows.take (p + 1))
  | none => .ok rows

/-- `line.forEach` -/
def assemble : List Session → Except String (List Message)
  | [] => .ok []
  | x :: rest => do
    let out ← d.piece x rest.head?
    let more ← assemble rest
    return out ++ more

/-- `getMessages`; `none` where it does not end. -/
def getMessages (id : String) (includeAncestors : Bool) : Option (Except String (List Message)) :=
  if includeAncestors then (d.lineage (d.sessions.rows.length + 1) (d.session id) [] []).map fun line => line.bind d.assemble
  else some (.ok (d.messages.of id))

/-- The pieces of a line that goes on with `last`. -/
def pieces : List Session → Session → Except String (List Message)
  | [], _ => .ok []
  | x :: rest, last => do
    let out ← d.piece x (rest ++ [last]).head?
    let more ← pieces rest last
    return out ++ more

/-- The ancestors of a session, from the first one, and what they add to its messages. -/
inductive Line : SessionRow → List Session → List Message → Prop where
  | root {r : SessionRow} (whole : r.branch = none) : Line r [] []
  | branch {r parent : SessionRow} {session message : String} {line : List Session} {before head : List Message} {b : Message}
      {tail : List Message} (branch : r.branch = some (session,message)) (named : session ≠ "" ∧ message ≠ "")
      (found : d.sessions.find? session = some parent) (earlier : Line parent line before)
      (split : d.messages.of session = head ++ b :: tail) (point : b.id = message) (first : ∀ m ∈ head, m.id ≠ message) :
      Line r (line ++ [sessionOf parent]) (before ++ (head ++ [b]))

variable {d}

theorem assemble_append (line : List Session) (last : Session) (rest : List Session) {before after : List Message}
    (first : d.pieces line last = .ok before) (then_ : d.assemble (last :: rest) = .ok after) :
    d.assemble (line ++ last :: rest) = .ok (before ++ after) := by
  induction line generalizing before with
  | nil =>
    cases first
    exact then_
  | cons x line ih =>
    obtain ⟨out,piece,first⟩ := Result.bind_eq_ok.mp first
    obtain ⟨more,others,same⟩ := Result.bind_eq_ok.mp first
    cases same
    have heads : (line ++ last :: rest).head? = (line ++ [last]).head? := by cases line <;> rfl
    rw [List.cons_append,assemble,heads,piece,List.append_assoc]
    exact Result.bind_eq_ok.mpr ⟨out,rfl,Result.bind_eq_ok.mpr ⟨_,ih others,rfl⟩⟩

theorem pieces_append (line : List Session) (last next : Session) {before out : List Message}
    (first : d.pieces line last = .ok before) (piece : d.piece last (some next) = .ok out) :
    d.pieces (line ++ [last]) next = .ok (before ++ out) := by
  induction line generalizing before with
  | nil =>
    cases first
    refine Result.bind_eq_ok.mpr ⟨out,piece,Result.bind_eq_ok.mpr ⟨[],rfl,?_⟩⟩
    simp [pure,Except.pure]
  | cons x line ih =>
    obtain ⟨out',piece',first⟩ := Result.bind_eq_ok.mp first
    obtain ⟨more,others,same⟩ := Result.bind_eq_ok.mp first
    cases same
    have heads : (line ++ [last] ++ [next]).head? = (line ++ [last]).head? := by cases line <;> rfl
    rw [List.cons_append,pieces,heads,piece',List.append_assoc]
    exact Result.bind_eq_ok.mpr ⟨out',rfl,Result.bind_eq_ok.mpr ⟨_,ih others,rfl⟩⟩

theorem piece_of_split {x next : Session} {message : String} {head tail : List Message} {b : Message}
    (cut : next.parentMessageId = some message) (named : message ≠ "") (split : d.messages.of x.id = head ++ b :: tail)
    (point : b.id = message) (first : ∀ m ∈ head, m.id ≠ message) : d.piece x (some next) = .ok (head ++ [b]) := by
  have index : (head ++ b :: tail).findIdx? (fun m => m.id = message) = some head.length := by
    rw [List.findIdx?_append,List.findIdx?_eq_none_iff.mpr (by simpa using first)]
    simp [List.findIdx?_cons,point]
  have given : (some message).filter (· ≠ "") = some message := Option.filter_some_pos (by simpa using named)
  have taken : (head ++ b :: tail).take (head.length + 1) = head ++ [b] := by
    rw [List.take_append,List.take_of_length_le (Nat.le_succ _)]
    simp
  simp only [piece,Option.bind_some,cut,given,split,index,taken]

/-- What the line adds is what `getMessages` puts together. -/
theorem Line.pieces {r : SessionRow} {line : List Session} {before : List Message} (here : d.Line r line before) :
    d.pieces line (sessionOf r) = .ok before := by
  induction here with
  | root whole => rfl
  | @branch r parent session message line before head b tail branch named found earlier split point first ih =>
    have cut : (sessionOf r).parentMessageId = some message := by simp [sessionOf,branch]
    have key : parent.id = session := Table.key_of_find? found
    have own : d.messages.of (sessionOf parent).id = head ++ b :: tail := (congrArg d.messages.of key).trans split
    exact pieces_append _ _ _ ih (piece_of_split cut named.2 own point first)

theorem Line.lineage {r : SessionRow} {line : List Session} {before : List Message} (here : d.Line r line before) {fuel : ℕ}
    (enough : line.length < fuel) {seen : List String} (distinct : ((line ++ [sessionOf r]).map Session.id).Nodup)
    (fresh : ∀ x ∈ line ++ [sessionOf r], x.id ∉ seen) (found : List Session) :
    d.lineage fuel (some (sessionOf r)) seen found = some (.ok (line ++ sessionOf r :: found)) := by
  induction here generalizing fuel seen found with
  | @root r whole =>
    obtain _ | fuel := fuel
    · simp at enough
    · have fresh : (sessionOf r).id ∉ seen := fresh _ (List.mem_singleton_self _)
      have none_ : (sessionOf r).parentSessionId = none := by simp [sessionOf,whole]
      simp only [SessionTables.lineage,if_neg fresh,none_]
      cases fuel <;> rfl
  | @branch r parent session message line before head b tail branch named parentFound earlier split point first ih =>
    obtain _ | fuel := fuel
    · simp at enough
    · have here : (sessionOf r).id ∉ seen := fresh _ (by simp)
      have up : ((sessionOf r).parentSessionId.filter (· ≠ "")).bind d.session = some (sessionOf parent) := by
        have given : (some session).filter (· ≠ "") = some session := Option.filter_some_pos (by simpa using named.1)
        simp only [sessionOf,branch,Option.map_some,given,Option.bind_some,SessionTables.session,parentFound]
      simp only [SessionTables.lineage,if_neg here,up]
      rw [List.map_append,List.nodup_append] at distinct
      obtain ⟨distinct,_,apart⟩ := distinct
      rw [ih (by simpa using enough) distinct,List.append_assoc]
      · rfl
      · intro x inside
        rw [List.mem_cons,not_or]
        refine ⟨fun same => ?_,fresh x (List.mem_append_left _ inside)⟩
        exact apart _ (List.mem_map.mpr ⟨x,inside,rfl⟩) _ (by simp) same

/-- A line on which no session comes twice, the last one included. -/
def Simple (d : SessionTables) (r : SessionRow) (line : List Session) : Prop :=
  ((line ++ [sessionOf r]).map Session.id).Nodup ∧ line.length < d.sessions.rows.length

theorem Line.getMessages {r : SessionRow} {line : List Session} {before : List Message} (here : d.Line r line before)
    (simple : Simple d r line) (found : d.sessions.find? r.id = some r) :
    d.getMessages r.id true = some (.ok (before ++ d.messages.of r.id)) := by
  have walked := here.lineage (Nat.lt_succ_of_lt simple.2) simple.1 (fun x _ => (List.not_mem_nil : x.id ∉ [])) []
  have own : d.assemble [sessionOf r] = .ok (d.messages.of r.id) := by
    refine Result.bind_eq_ok.mpr ⟨d.messages.of r.id,rfl,Result.bind_eq_ok.mpr ⟨[],rfl,?_⟩⟩
    simp [pure,Except.pure]
  have put : d.assemble (line ++ [sessionOf r]) = .ok (before ++ d.messages.of r.id) :=
    assemble_append line (sessionOf r) [] here.pieces own
  simp only [SessionTables.getMessages,if_true,SessionTables.session,found,Option.map_some,walked,Except.bind,put]

theorem mem_of {t : Messages} {session : String} {m : Message} (inside : m ∈ t.of session) :
    m ∈ t.table.rows ∧ m.sessionId = session := by
  simpa [Messages.of] using inside

theorem Line.members {r : SessionRow} {line : List Session} {before : List Message} (here : d.Line r line before) :
    ∀ m ∈ before, m ∈ d.messages.table.rows ∧ m.sessionId ∈ line.map Session.id := by
  induction here with
  | root whole => simp
  | @branch r parent session message line before head b tail branch named found earlier split point first ih =>
    intro m inside
    obtain old | new := List.mem_append.mp inside
    · obtain ⟨stored,owner⟩ := ih m old
      exact ⟨stored,by rw [List.map_append]; exact List.mem_append_left _ owner⟩
    · have own : m ∈ d.messages.of session := by
        rw [split]
        simp only [List.mem_append,List.mem_singleton] at new
        simp only [List.mem_append,List.mem_cons]
        exact new.imp_right .inl
      obtain ⟨stored,owner⟩ := mem_of own
      have key : parent.id = session := Table.key_of_find? found
      exact ⟨stored,by simp [owner,← key,sessionOf]⟩

/-- What is added to the tables later changes no line. -/
theorem Line.later {d' : SessionTables} (later : Extends d d') {r : SessionRow} {line : List Session} {before : List Message}
    (here : d.Line r line before) : d'.Line r line before := by
  induction here with
  | root whole => exact .root whole
  | @branch r parent session message line before head b tail branch named found earlier split point first ih =>
    obtain ⟨more,same⟩ := later.messages
    have split' : d'.messages.of session = head ++ b :: (tail ++ more.filter fun m => m.sessionId = session) := by
      rw [Messages.of,Table.select,← same,List.filter_append]
      change d.messages.of session ++ _ = _
      rw [split]
      simp
    exact .branch branch named (find?_of_grown later.sessions found) ih split' point first

end SessionTables

end RatifyOs.Storage
