import Mathlib.Data.List.Perm.Subperm
import RatifyOs.Data.Latest
import RatifyOs.Data.Result
import RatifyOs.Memory.Batch

/-! `MemoryStore.startSession`: what a session was shown stays, while batches go on. -/
namespace RatifyOs.Memory
open Data Async

structure MemorySnapshot where
  sessionId : String
  revision : ℤ
  createdAt : ℤ
  entries : List MemoryEntry

/-- A row of `memory_snapshots` -/
structure SnapshotRow where
  sessionId : String
  revision : ℤ
  createdAt : ℤ
  entriesJson : Text

def MAX_SESSION_BYTES : ℕ := 256

section Entries

def entryJson (e : MemoryEntry) : Json :=
  .obj [("id",.str e.id),("namespace",.str e.namespace_.text),("value",.str e.value),
    ("normalizedValue",.str e.normalizedValue),("provenance",.obj [("source",.str e.provenance.source)]),
    ("createdAt",.num e.createdAt),("updatedAt",.num e.updatedAt)]

/-- What `getSessionSnapshot` makes of an element, through `rowEntry`. -/
def entryOf (x : Json) : Except MemoryError MemoryEntry :=
  let text (key : String) := (Execution.property key x).bind Execution.textOf
  let number (key : String) := (Execution.property key x).bind Execution.numberOf
  match text "id",(text "namespace").bind MemoryNamespace.ofText,text "value",text "normalizedValue",
    Execution.property "provenance" x,number "createdAt",number "updatedAt" with
  | some id,some namespace_,some value,some normalizedValue,some provenance,some createdAt,some updatedAt =>
    rowEntry ⟨id,namespace_,value,normalizedValue,Execution.stringify provenance,createdAt,updatedAt⟩
  | _,_,_,_,_,_,_ => .error corrupt

/-- An entry as `rowEntry` gives it. -/
def MemoryEntry.Safe (e : MemoryEntry) : Prop :=
  safeInteger (.num e.createdAt) = some e.createdAt ∧ safeInteger (.num e.updatedAt) = some e.updatedAt

theorem entryOf_entryJson {e : MemoryEntry} (safe : e.Safe) : entryOf (entryJson e) = .ok e := by
  have named : MemoryNamespace.ofText e.namespace_.text = some e.namespace_ := by cases e.namespace_ <;> rfl
  have parsed := parse_written e.provenance
  rw [written] at parsed
  simp [entryOf,entryJson,Execution.property,Execution.textOf,Execution.numberOf,List.lookup_cons,named,rowEntry,parsed,safe.1,safe.2]

theorem safe_of_rowEntry {r : MemoryRow} {e : MemoryEntry} (read : rowEntry r = .ok e) : e.Safe := by
  unfold rowEntry at read
  split at read
  · rename_i created updated
    cases read
    exact ⟨safeInteger_num created,safeInteger_num updated⟩
  · cases read

theorem distinct_entries (entries : List MemoryEntry) : Execution.Distinct (.arr (entries.map entryJson)) := by
  rw [Execution.Distinct]
  induction entries with
  | nil => trivial
  | cons e rest ih => exact ⟨by simp [entryJson,Execution.Distinct,Execution.DistinctFields],ih⟩

end Entries

section Calls
variable (s : Settings)

def validateSessionId (id : String) : Except MemoryError Unit :=
  Result.reject (Text.trim id.toList = [] ∨ id.utf8ByteSize > MAX_SESSION_BYTES ∨ id ≠ s.nfkc id)
    (invalid "Session ID is invalid, non-canonical, or too large")

/-- `getSessionSnapshot` of a session id that is valid. -/
def getSessionSnapshot (snapshots : Table SnapshotRow.sessionId) (sessionId : String) :
    Except MemoryError (Option MemorySnapshot) :=
  match snapshots.find? sessionId with
  | none => .ok none
  | some row =>
    match Json.parse row.entriesJson,safeInteger (.num row.revision),safeInteger (.num row.createdAt) with
    | some (.arr parsed),some revision,some createdAt => do
      let entries ← parsed.mapM entryOf
      return some ⟨sessionId,revision,createdAt,entries⟩
    | _,_,_ => .error corrupt

/-- The newest `retention` rows stay. -/
def evict (retention : ℕ) (snapshots : Table SnapshotRow.sessionId) : Table SnapshotRow.sessionId :=
  snapshots.keep fun r =>
    r.sessionId ∉ ((Newest.ranked SnapshotRow.createdAt snapshots.rows).drop retention).map SnapshotRow.sessionId

def revisionOf (d : MemoryTables) : Except MemoryError ℤ :=
  if Execution.SafeInteger d.revision then Result.required (safeInteger (.num d.revision)) corrupt
  else .error (.other "ERR_OUT_OF_RANGE")

/-- The revision and the entries of the store. -/
def contents (d : MemoryTables) : Except MemoryError (ℤ × List MemoryEntry) := do
  let revision ← revisionOf d
  let entries ← (d.entries.select none).mapM rowEntry
  return (revision,entries)

def snapshotRow (sessionId : String) (revision at_ : ℤ) (entries : List MemoryEntry) : SnapshotRow :=
  ⟨sessionId,revision,at_,Execution.stringify (.arr (entries.map entryJson))⟩

/-- What the transaction commits for a session that has no snapshot. -/
def create (retention : ℕ) (d : MemoryTables) (snapshots : Table SnapshotRow.sessionId) (sessionId : String)
    (now : Except String Json) : Except MemoryError (Table SnapshotRow.sessionId) := do
  let reading ← now.mapError MemoryError.other
  let at_ ← Result.required (safeInteger reading) (invalid "Snapshot timestamp must be a nonnegative safe integer")
  let (revision,entries) ← contents d
  let inserted ← Result.required (snapshots.insert? (snapshotRow sessionId revision at_ entries))
    (.sqlite 1555 "UNIQUE constraint failed: memory_snapshots.session_id")
  return evict retention inserted

/-- The database; and, for the record, what the store had when the snapshot that a session has now
was made. -/
structure Sessions where
  site : MemoryStore.Batches
  snapshots : Table SnapshotRow.sessionId
  first : String → Option (ℤ × List MemoryEntry)

def Sessions.initial : Sessions := ⟨.initial .empty,.empty,fun _ => none⟩

/-- The record after the snapshots have changed. -/
def remember (c : Sessions) (snapshots : Table SnapshotRow.sessionId) (id : String) : Option (ℤ × List MemoryEntry) :=
  if snapshots.find? id = none then none
  else if c.snapshots.find? id = none then (contents c.site.committed).toOption
  else c.first id

def removed : MemoryError := invalid "Snapshot was removed by retention policy"

/-- `now` is what the clock says, should it be asked. -/
def startSession (retention : ℕ) (c : Sessions) (sessionId : String) (now : Except String Json) :
    Except MemoryError MemorySnapshot × Sessions :=
  match validateSessionId s sessionId with
  | .error error => (.error error,c)
  | .ok () =>
    if c.site.writer.isSome then (.error busy,c)
    else match getSessionSnapshot c.snapshots sessionId with
      | .error error => (.error error,c)
      | .ok (some existing) => (.ok existing,c)
      | .ok none =>
        match create retention c.site.committed c.snapshots sessionId now with
        | .error error => (.error error,c)
        | .ok snapshots =>
          (do Result.required (← getSessionSnapshot snapshots sessionId) removed,
            { c with snapshots, first := remember c snapshots })

def deleteSessionSnapshot (c : Sessions) (sessionId : String) : Except MemoryError Bool × Sessions :=
  match validateSessionId s sessionId with
  | .error error => (.error error,c)
  | .ok () =>
    if c.site.writer.isSome then (.error busy,c)
    else
      let snapshots := c.snapshots.keep fun r => r.sessionId ≠ sessionId
      (.ok (c.snapshots.find? sessionId).isSome,{ c with snapshots, first := remember c snapshots })

inductive SessionEvent where
  | batch (event : Transactions.Event (Json × List MemoryOperation) Draw)
  | startSession (sessionId : String) (now : Except String Json)
  | deleteSessionSnapshot (sessionId : String)

def sessionStep (retention : ℕ) (c : Sessions) : SessionEvent → Sessions
  | .batch event => { c with site := MemoryStore.step s c.site event }
  | .startSession id now => (startSession s retention c id now).2
  | .deleteSessionSnapshot id => (deleteSessionSnapshot s c id).2

/-- The call comes to make a snapshot of this time. -/
structure Makes (c : Sessions) (sessionId : String) (now : Except String Json) (at_ : ℤ) (what : ℤ × List MemoryEntry) : Prop where
  valid : validateSessionId s sessionId = .ok ()
  free : c.site.writer = none
  absent : c.snapshots.find? sessionId = none
  now : ∃ reading, now = .ok reading ∧ safeInteger reading = some at_
  contents : contents c.site.committed = .ok what

/-- A call of `startSession` is not refused for the sake of retention, returns what the store had
when the session was started first, and keeps the snapshot it has made; and there are never more
snapshots than are to be retained. -/
def Stable (retention : ℕ) (c : Sessions) (event : SessionEvent) : Prop :=
  (sessionStep s retention c event).snapshots.rows.length ≤ retention ∧
    ∀ id now, event = .startSession id now →
      (startSession s retention c id now).1 ≠ .error removed ∧
      (∀ snapshot, (startSession s retention c id now).1 = .ok snapshot → snapshot.sessionId = id ∧
        (startSession s retention c id now).2.first id = some (snapshot.revision,snapshot.entries)) ∧
      ∀ at_ what, Makes s c id now at_ what → (startSession s retention c id now).2.snapshots.find? id ≠ none

/-- Where a snapshot is made, fewer than `retention` snapshots are of a later time. -/
def Recent (retention : ℕ) (c : Sessions) (event : SessionEvent) : Prop :=
  ∀ id now at_ what, event = .startSession id now → Makes s c id now at_ what →
    (c.snapshots.rows.filter fun r => at_ < r.createdAt).length < retention

end Calls

section Snapshots
variable {s : Settings} {retention : ℕ} {c : Sessions} {id : String} {now : Except String Json}

/-- A row that was made of such a content. -/
structure SnapshotRow.Holds (r : SnapshotRow) (what : ℤ × List MemoryEntry) : Prop where
  safe : ∀ e ∈ what.2, e.Safe
  made : ∃ at_, safeInteger (.num at_) = some at_ ∧ r = snapshotRow r.sessionId what.1 at_ what.2
  revision : safeInteger (.num what.1) = some what.1

theorem getSessionSnapshot_of_holds {snapshots : Table SnapshotRow.sessionId} {r : SnapshotRow} {what : ℤ × List MemoryEntry}
    (found : snapshots.find? id = some r) (holds : r.Holds what) :
    getSessionSnapshot snapshots id = .ok (some ⟨id,what.1,r.createdAt,what.2⟩) := by
  obtain ⟨at_,time,made⟩ := holds.made
  have entries : (what.2.map entryJson).mapM entryOf = .ok what.2 := by
    rw [Result.mapM_eq_ok,List.forall₂_map_left_iff,List.forall₂_same]
    exact fun e inside => entryOf_entryJson (holds.safe e inside)
  rw [getSessionSnapshot,found,made]
  simp only [snapshotRow,Execution.parse_stringify (distinct_entries what.2),holds.revision,time]
  rw [entries]
  rfl

theorem contents_holds {d : MemoryTables} {what : ℤ × List MemoryEntry} (known : contents d = .ok what) {at_ : ℤ}
    (time : safeInteger (.num at_) = some at_) : (snapshotRow id what.1 at_ what.2).Holds what := by
  unfold contents at known
  obtain ⟨revision,read,known⟩ := Result.bind_eq_ok.mp known
  obtain ⟨entries,listed,known⟩ := Result.bind_eq_ok.mp known
  cases known
  refine ⟨fun e inside => ?_,⟨at_,time,rfl⟩,?_⟩
  · obtain ⟨r,-,row⟩ := Result.mem_of_mapM listed e inside
    exact safe_of_rowEntry row
  · unfold revisionOf at read
    split_ifs at read
    exact safeInteger_num (Result.required_eq_ok.mp read)

theorem mem_evict {snapshots : Table SnapshotRow.sessionId} {r : SnapshotRow} : r ∈ (evict retention snapshots).rows ↔
    r ∈ snapshots.rows ∧ r ∉ (Newest.ranked SnapshotRow.createdAt snapshots.rows).drop retention := by
  rw [evict,Table.keep,List.mem_filter,decide_eq_true_eq]
  refine and_congr_right fun inside => not_congr ?_
  rw [List.mem_map]
  constructor
  · rintro ⟨other,dropped,same⟩
    have known := Newest.mem_ranked.mp (List.mem_of_mem_drop dropped)
    rwa [← List.inj_on_of_nodup_map snapshots.distinct known inside same]
  · exact fun dropped => ⟨r,dropped,rfl⟩

theorem length_evict (snapshots : Table SnapshotRow.sessionId) : (evict retention snapshots).rows.length ≤ retention := by
  have distinct : (evict retention snapshots).rows.Nodup := (evict retention snapshots).distinct.of_map _
  have newest : (evict retention snapshots).rows ⊆ (Newest.ranked SnapshotRow.createdAt snapshots.rows).take retention := by
    intro r inside
    obtain ⟨known,kept⟩ := mem_evict.mp inside
    have ranked : r ∈ Newest.ranked SnapshotRow.createdAt snapshots.rows := Newest.mem_ranked.mpr known
    rw [← List.take_append_drop retention (Newest.ranked _ _),List.mem_append] at ranked
    exact ranked.resolve_right kept
  exact (List.subperm_of_subset distinct newest).length_le.trans (List.length_take_le _ _)

/-- The snapshot made last is there unless enough others are of a later time. -/
theorem find?_evict {snapshots inserted : Table SnapshotRow.sessionId} {r : SnapshotRow}
    (insert : snapshots.insert? r = some inserted) :
    (evict retention inserted).find? r.sessionId =
      if (snapshots.rows.filter fun a => r.createdAt < a.createdAt).length < retention then some r else none := by
  obtain ⟨absent,rows⟩ := Table.insert?_eq_some_iff.mp insert
  have fresh : r ∉ snapshots.rows := fun inside => Table.find?_eq_none_iff.mp absent r inside rfl
  have dropped : r ∈ (Newest.ranked SnapshotRow.createdAt _).drop retention ↔ _ := Newest.mem_drop_ranked fresh retention
  rw [← rows] at dropped
  have here : r ∈ inserted.rows := rows ▸ List.mem_append_right _ (.head _)
  split_ifs with recent
  · exact Table.find?_of_mem (mem_evict.mpr ⟨here,fun out => absurd (dropped.mp out) (not_le.mpr recent)⟩)
  · rw [Table.find?_eq_none_iff]
    intro other inside same
    obtain ⟨known,kept⟩ := mem_evict.mp inside
    have one : other = r := List.inj_on_of_nodup_map inserted.distinct known here same
    exact kept (one ▸ dropped.mpr (not_lt.mp recent))

end Snapshots

section Steps
variable {s : Settings} {retention : ℕ} {c : Sessions} {id : String} {now : Except String Json}

/-- Every snapshot is there with the content on record, and there are not too many. -/
structure Sound (retention : ℕ) (c : Sessions) : Prop where
  holds : ∀ r ∈ c.snapshots.rows, ∃ what, c.first r.sessionId = some what ∧ r.Holds what
  few : c.snapshots.rows.length ≤ retention

theorem create_eq {at_ : ℤ} {what : ℤ × List MemoryEntry} (makes : Makes s c id now at_ what) :
    ∃ inserted, c.snapshots.insert? (snapshotRow id what.1 at_ what.2) = some inserted ∧
      create retention c.site.committed c.snapshots id now = .ok (evict retention inserted) := by
  obtain ⟨reading,clock,safe⟩ := makes.now
  obtain ⟨inserted,insert⟩ := Table.insert?_of_absent (r := snapshotRow id what.1 at_ what.2) makes.absent
  refine ⟨inserted,insert,?_⟩
  rw [create,clock]
  refine Result.bind_eq_ok.mpr ⟨reading,rfl,Result.bind_eq_ok.mpr ⟨at_,Result.required_eq_ok.mpr safe,?_⟩⟩
  refine Result.bind_eq_ok.mpr ⟨what,makes.contents,Result.bind_eq_ok.mpr ⟨inserted,?_,rfl⟩⟩
  exact Result.required_eq_ok.mpr insert

theorem makes_of_create {snapshots : Table SnapshotRow.sessionId} (valid : validateSessionId s id = .ok ())
    (free : c.site.writer = none) (absent : c.snapshots.find? id = none)
    (created : create retention c.site.committed c.snapshots id now = .ok snapshots) :
    ∃ at_ what, Makes s c id now at_ what := by
  unfold create at created
  obtain ⟨reading,clock,created⟩ := Result.bind_eq_ok.mp created
  obtain ⟨at_,safe,created⟩ := Result.bind_eq_ok.mp created
  obtain ⟨what,known,-⟩ := Result.bind_eq_ok.mp created
  refine ⟨at_,what,valid,free,absent,⟨reading,?_,Result.required_eq_ok.mp safe⟩,known⟩
  cases now with
  | ok value => exact congrArg Except.ok (Except.ok.inj clock)
  | error error => cases clock

theorem get_absent (absent : c.snapshots.find? id = none) : getSessionSnapshot c.snapshots id = .ok none := by
  rw [getSessionSnapshot,absent]

theorem startSession_makes {at_ : ℤ} {what : ℤ × List MemoryEntry} (makes : Makes s c id now at_ what) :
    ∃ inserted, c.snapshots.insert? (snapshotRow id what.1 at_ what.2) = some inserted ∧
      startSession s retention c id now =
        (do Result.required (← getSessionSnapshot (evict retention inserted) id) removed,
          { c with snapshots := evict retention inserted,first := remember c (evict retention inserted) }) := by
  obtain ⟨inserted,insert,(created : create retention _ _ _ _ = _)⟩ := create_eq makes
  refine ⟨inserted,insert,?_⟩
  rw [startSession,makes.valid]
  simp only [makes.free,Option.isSome_none,Bool.false_eq_true,if_false,get_absent makes.absent,created]

theorem contents_error {d : MemoryTables} {error : MemoryError} (thrown : contents d = .error error) : error ≠ removed := by
  unfold contents revisionOf at thrown
  rintro rfl
  split_ifs at thrown
  · cases known : safeInteger (.num d.revision) with
    | none =>
      rw [known] at thrown
      cases thrown
    | some revision =>
      rw [known] at thrown
      cases listed : (d.entries.select none).mapM rowEntry with
      | ok entries =>
        rw [listed] at thrown
        cases thrown
      | error error =>
        rw [listed] at thrown
        cases thrown
        obtain ⟨r,-,row⟩ := Result.error_of_mapM listed
        unfold rowEntry at row
        split at row <;> cases row
  · cases thrown

theorem create_error {error : MemoryError} (thrown : create retention c.site.committed c.snapshots id now = .error error) :
    error ≠ removed := by
  unfold create at thrown
  cases now with
  | error message =>
    cases thrown
    exact MemoryError.noConfusion
  | ok reading =>
    cases safe : safeInteger reading with
    | none =>
      change (Result.required (safeInteger reading) _ >>= _) = _ at thrown
      rw [safe] at thrown
      cases thrown
      decide
    | some at_ =>
      change (Result.required (safeInteger reading) _ >>= _) = _ at thrown
      rw [safe] at thrown
      cases known : contents c.site.committed with
      | error other =>
        change (contents c.site.committed >>= _) = _ at thrown
        rw [known] at thrown
        cases thrown
        exact contents_error known
      | ok what =>
        change (contents c.site.committed >>= _) = _ at thrown
        rw [known] at thrown
        cases insert : c.snapshots.insert? (snapshotRow id what.1 at_ what.2) with
        | none =>
          change (Result.required (c.snapshots.insert? _) _ >>= _) = _ at thrown
          rw [insert] at thrown
          cases thrown
          decide
        | some inserted =>
          change (Result.required (c.snapshots.insert? _) _ >>= _) = _ at thrown
          rw [insert] at thrown
          cases thrown

theorem validateSessionId_error {error : MemoryError} (thrown : validateSessionId s id = .error error) : error ≠ removed := by
  unfold validateSessionId Result.reject at thrown
  split_ifs at thrown
  cases thrown
  decide

theorem Sound.get (sound : Sound retention c) (id : String) : ∃ found, getSessionSnapshot c.snapshots id = .ok found := by
  cases known : c.snapshots.find? id with
  | none => exact ⟨none,get_absent known⟩
  | some r =>
    obtain ⟨what,-,holds⟩ := sound.holds r (Table.mem_of_find? known)
    exact ⟨_,getSessionSnapshot_of_holds known holds⟩

/-- A call that makes no snapshot changes nothing, and does not complain of retention. -/
theorem startSession_other (sound : Sound retention c) (other : ∀ at_ what, ¬Makes s c id now at_ what) :
    (startSession s retention c id now).2 = c ∧ (startSession s retention c id now).1 ≠ .error removed ∧
      ∀ snapshot, (startSession s retention c id now).1 = .ok snapshot →
        getSessionSnapshot c.snapshots id = .ok (some snapshot) := by
  unfold startSession
  cases valid : validateSessionId s id with
  | error error =>
    have differs := validateSessionId_error valid
    exact ⟨rfl,fun same => differs (Except.error.inj same),fun _ done => by cases done⟩
  | ok u =>
    dsimp only
    by_cases taken : c.site.writer.isSome
    · rw [if_pos taken]
      exact ⟨rfl,fun same => absurd (Except.error.inj same) (by decide),fun _ done => by cases done⟩
    · rw [if_neg taken]
      have free : c.site.writer = none := by simpa using taken
      obtain ⟨found,get⟩ := sound.get id
      rw [get]
      cases found with
      | some existing => exact ⟨rfl,nofun,fun snapshot done => by cases done; rfl⟩
      | none =>
        dsimp only
        cases created : create retention c.site.committed c.snapshots id now with
        | error error =>
          have differs := create_error created
          exact ⟨rfl,fun same => differs (Except.error.inj same),fun _ done => by cases done⟩
        | ok snapshots =>
          have absent : c.snapshots.find? id = none := by
            cases known : c.snapshots.find? id with
            | none => rfl
            | some r =>
              obtain ⟨what,-,holds⟩ := sound.holds r (Table.mem_of_find? known)
              rw [getSessionSnapshot_of_holds known holds] at get
              cases get
          obtain ⟨at_,what,makes⟩ := makes_of_create valid free absent created
          exact absurd makes (other at_ what)

theorem remember_find {snapshots : Table SnapshotRow.sessionId} {r : SnapshotRow} (there : snapshots.find? id = some r) :
    remember c snapshots id =
      if c.snapshots.find? id = none then (contents c.site.committed).toOption else c.first id := by
  rw [remember,if_neg (by simp [there])]

/-- Rows that stay, and a new one of what the store has, are on record. -/
theorem Sound.change (sound : Sound retention c) {snapshots : Table SnapshotRow.sessionId}
    (few : snapshots.rows.length ≤ retention)
    (rows : ∀ r ∈ snapshots.rows, r ∈ c.snapshots.rows ∨ c.snapshots.find? r.sessionId = none ∧
      ∃ what, contents c.site.committed = .ok what ∧ r.Holds what) :
    Sound retention { c with snapshots,first := remember c snapshots } := by
  refine ⟨fun r inside => ?_,few⟩
  have there := Table.find?_of_mem inside
  rcases rows r inside with old | ⟨absent,what,known,holds⟩
  · obtain ⟨what,first,holds⟩ := sound.holds r old
    have before := Table.find?_of_mem old
    refine ⟨what,?_,holds⟩
    exact (remember_find there).trans ((if_neg (by simp [before])).trans first)
  · refine ⟨what,?_,holds⟩
    exact (remember_find there).trans ((if_pos absent).trans (by rw [known]; rfl))

theorem Sound.makes (sound : Sound retention c) {at_ : ℤ} {what : ℤ × List MemoryEntry} (makes : Makes s c id now at_ what) :
    Sound retention (startSession s retention c id now).2 ∧
      (startSession s retention c id now).2.snapshots.find? id =
        if (c.snapshots.rows.filter fun r => at_ < r.createdAt).length < retention then some (snapshotRow id what.1 at_ what.2)
        else none := by
  obtain ⟨inserted,insert,(result : startSession s retention c id now = _)⟩ := startSession_makes makes
  obtain ⟨reading,-,safe⟩ := makes.now
  obtain ⟨absent,rows⟩ := Table.insert?_eq_some_iff.mp insert
  rw [result]
  refine ⟨sound.change (length_evict inserted) fun r inside => ?_,find?_evict insert⟩
  have known := (mem_evict.mp inside).1
  rw [rows,List.mem_append,List.mem_singleton] at known
  rcases known with old | rfl
  · exact .inl old
  · exact .inr ⟨absent,what,makes.contents,contents_holds makes.contents (safeInteger_num safe)⟩

theorem sound_step (sound : Sound retention c) (event : SessionEvent) : Sound retention (sessionStep s retention c event) := by
  cases event with
  | batch event => exact ⟨sound.holds,sound.few⟩
  | startSession id now =>
    by_cases makes : ∃ at_ what, Makes s c id now at_ what
    · obtain ⟨at_,what,makes⟩ := makes
      exact (sound.makes makes).1
    · rw [sessionStep,(startSession_other sound fun at_ what m => makes ⟨at_,what,m⟩).1]
      exact sound
  | deleteSessionSnapshot id =>
    rw [sessionStep,deleteSessionSnapshot]
    cases validateSessionId s id with
    | error error => exact sound
    | ok u =>
      dsimp only
      split_ifs with taken
      · exact sound
      · apply sound.change
        · exact (List.length_filter_le _ _).trans sound.few
        · exact fun r inside => .inl (List.mem_of_mem_filter inside)

theorem stable_iff (sound : Sound retention c) (event : SessionEvent) :
    Stable s retention c event ↔ Recent s retention c event := by
  have few := (sound_step (s := s) sound event).few
  constructor
  · rintro ⟨-,stable⟩ id now at_ what rfl makes
    obtain ⟨-,-,kept⟩ := stable id now rfl
    by_contra old
    exact kept at_ what makes ((sound.makes makes).2.trans (if_neg old))
  · refine fun recent => ⟨few,?_⟩
    rintro id now rfl
    by_cases makes : ∃ at_ what, Makes s c id now at_ what
    · obtain ⟨at_,what,makes⟩ := makes
      obtain ⟨after,found⟩ := sound.makes makes
      rw [if_pos (recent id now at_ what rfl makes)] at found
      obtain ⟨reading,-,safe⟩ := makes.now
      have get := getSessionSnapshot_of_holds found (contents_holds makes.contents (safeInteger_num safe))
      have first := remember_find (c := c) found
      rw [if_pos makes.absent,makes.contents] at first
      obtain ⟨inserted,-,(result : startSession s retention c id now = _)⟩ := startSession_makes makes
      rw [result] at found get first ⊢
      have given : (do Result.required (← getSessionSnapshot (evict retention inserted) id) removed) =
          Except.ok ⟨id,what.1,at_,what.2⟩ := by
        rw [get]
        rfl
      refine ⟨by simp [given],fun snapshot done => ?_,fun _ _ _ => by simp [found]⟩
      rw [given] at done
      cases done
      exact ⟨rfl,first⟩
    · obtain ⟨same,silent,given⟩ := startSession_other sound fun at_ what m => makes ⟨at_,what,m⟩
      refine ⟨silent,fun snapshot done => ?_,fun at_ what m => absurd ⟨at_,what,m⟩ makes⟩
      have get := given snapshot done
      rw [same]
      cases known : c.snapshots.find? id with
      | none =>
        rw [get_absent known] at get
        cases get
      | some r =>
        obtain ⟨what,first,holds⟩ := sound.holds r (Table.mem_of_find? known)
        rw [getSessionSnapshot_of_holds known holds] at get
        cases get
        rw [← Table.key_of_find? known]
        exact ⟨rfl,first⟩

end Steps

theorem sessions_stable_iff (s : Settings) (retention : ℕ) (events : List SessionEvent) :
    Run.Meets (sessionStep s retention) (Stable s retention) Sessions.initial events ↔
      Run.Meets (sessionStep s retention) (Recent s retention) Sessions.initial events := by
  have start : Sound retention Sessions.initial := { holds := fun r inside => (by cases inside), few := Nat.zero_le _ }
  constructor
  · apply Run.Meets.within (I := Sound retention)
    · exact fun c event _ sound => sound_step sound event
    · exact fun c event stable sound => (stable_iff sound event).mp stable
    · exact start
  · apply Run.Meets.within (I := Sound retention)
    · exact fun c event _ sound => sound_step sound event
    · exact fun c event recent sound => (stable_iff sound event).mpr recent
    · exact start

/-- A clock that goes back: the snapshot is removed by the call that makes it. -/
theorem sessions_unstable : ¬Run.Meets (sessionStep ⟨fun _ => 65536,id,id⟩ 1) (Stable ⟨fun _ => 65536,id,id⟩ 1) Sessions.initial
    [.startSession "a" (.ok (.num 5)),.startSession "b" (.ok (.num 3))] := by
  intro meets
  have refused := (meets.2.1.2 "b" (.ok (.num 3)) rfl).1
  exact refused (by rfl)

end RatifyOs.Memory
