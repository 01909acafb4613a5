import RatifyOs.Memory.Store

/-! Batches on one database, from any number of connections: each is computed from what the
last one committed, and one that throws has changed nothing. -/
namespace RatifyOs.Memory
open Data Async Async.Transactions
open Async.Program (call ofOption reject)

theorem safeInteger_num {n : Json} {k : ℤ} (safe : safeInteger n = some k) : safeInteger (.num k) = some k := by
  cases n <;> simp_all [safeInteger,Execution.safeInteger,Execution.numberOf,Option.filter_eq_some_iff]

theorem eq_of_safeInteger {n k : ℤ} (safe : safeInteger (.num n) = some k) : k = n := by
  simp only [safeInteger,Execution.safeInteger,Execution.numberOf,Option.filter_eq_some_iff] at safe
  exact (Option.some.inj safe.1.1).symm

/-- A row that `rowEntry` reads. -/
structure MemoryRow.Readable (r : MemoryRow) : Prop where
  provenance : ∃ p, r.provenanceJson = written p
  createdAt : safeInteger (.num r.createdAt) = some r.createdAt
  updatedAt : safeInteger (.num r.updatedAt) = some r.updatedAt

def MemoryRow.bytes (r : MemoryRow) : ℕ :=
  (r.id ++ r.namespace_.text ++ r.value ++ r.normalizedValue ++ String.ofList r.provenanceJson).utf8ByteSize + 16

/-- The byte total of a namespace. -/
def Curated.bytes (t : Curated) (n : MemoryNamespace) : ℕ := ((t.select (some n)).map MemoryRow.bytes).sum

section Batch
variable (s : Settings)

/-- What an operation makes of the entries. -/
inductive Effect : MemoryOperation → Curated → Curated → Prop where
  | add {entry : EntryInput} {clean : Clean} {n : MemoryNamespace} {id : String} {at_ : ℤ} {t u : Curated}
      (validated : validate s entry = .ok clean) (named : MemoryNamespace.ofText entry.namespace_ = some n)
      (inserted : t.insert ⟨id,n,clean.value,clean.normalized,written clean.provenance,at_,at_⟩ = .ok u) :
      Effect (.add entry) t u
  | replace {id : String} {entry : EntryInput} {clean : Clean} {r : MemoryRow} {at_ : ℤ} {t u : Curated}
      (validated : validate s entry = .ok clean) (found : t.table.find? id = some r)
      (named : MemoryNamespace.ofText entry.namespace_ = some r.namespace_)
      (updated : t.update { r with
        value := clean.value
        normalizedValue := clean.normalized
        provenanceJson := written clean.provenance
        updatedAt := at_ } = .ok u) : Effect (.replace id entry) t u
  | remove {id : String} {namespace_ : Option String} {t : Curated}
      (one : (t.table.rows.filter (meant id (namespace_.filter (· ≠ "")))).length = 1) :
      Effect (.remove id namespace_) t (t.keep fun r => !meant id (namespace_.filter (· ≠ "")) r)

/-- One operation after the other. -/
inductive Effects : List MemoryOperation → Curated → Curated → Prop where
  | nil {t : Curated} : Effects [] t t
  | cons {op : MemoryOperation} {ops : List MemoryOperation} {t u v : Curated} (first : Effect s op t u) (rest : Effects ops u v) :
      Effects (op :: ops) t v

/-- What holds of a committed state: its rows can be read, and no namespace is over its budget. -/
structure Valid (d : MemoryTables) : Prop where
  readable : ∀ r ∈ d.entries.table.rows, r.Readable
  within : ∀ n, d.entries.bytes n ≤ s.budgets n

/-- What a committed batch was: expected at the revision it found, computed from the entries
there, one revision later. -/
structure Batch (args : Json × List MemoryOperation) (before after : MemoryTables) : Prop where
  expected : safeInteger args.1 = some before.revision
  revision : after.revision = before.revision + 1
  effects : Effects s args.2 before.entries after.entries
  valid : Valid s after

end Batch

theorem parse_written (p : Provenance) : (Json.parse (written p)).bind provenanceOf = some p := by
  have distinct : Execution.Distinct (.obj [("source",.str p.source)]) := by
    simp [Execution.Distinct,Execution.DistinctFields]
  rw [written,Execution.parse_stringify distinct]
  rfl

theorem rowEntry_of_readable {r : MemoryRow} (readable : r.Readable) :
    ∃ e, rowEntry r = .ok e ∧ MemoryStore.bytes e = r.bytes := by
  obtain ⟨⟨p,json⟩,created,updated⟩ := readable
  refine ⟨⟨r.id,r.namespace_,r.value,r.normalizedValue,p,r.createdAt,r.updatedAt⟩,?_,?_⟩
  · simp only [rowEntry,json,parse_written,created,updated]
  · simp only [MemoryStore.bytes,MemoryRow.bytes,json]

theorem mapM_of_readable {rows : List MemoryRow} (readable : ∀ r ∈ rows, r.Readable) :
    ∃ entries, rows.mapM rowEntry = .ok entries ∧ entries.map MemoryStore.bytes = rows.map MemoryRow.bytes := by
  induction rows with
  | nil => exact ⟨[],rfl,rfl⟩
  | cons r rows ih =>
    obtain ⟨e,read,same⟩ := rowEntry_of_readable (readable r List.mem_cons_self)
    obtain ⟨entries,rest,sames⟩ := ih fun r inside => readable r (List.mem_cons_of_mem _ inside)
    refine ⟨e :: entries,?_,by simp only [List.map_cons,same,sames]⟩
    rw [List.mapM_cons,read]
    simp only [Except.bind,bind,rest,pure,Except.pure]

/-- A transaction in which nothing is committed yet. -/
def Working (b : MemoryTables) (phase : Phase MemoryTables) : Prop := ∃ w, phase = .inside b w

section Programs
variable {s : Settings} {args : Json × List MemoryOperation} {α : Type} {b w : MemoryTables}

/-- What the statements of a batch ask. -/
abbrev rules (s : Settings) (args : Json × List MemoryOperation) :
    Program.Spec (Op Stmt) (Answer StmtAnswer) MemoryError (Phase MemoryTables) :=
  spec meaning busy misuse (Valid s) (Batch s args)

theorem query_holds {stmt : Stmt} {Q : StmtAnswer stmt → Phase MemoryTables → Prop} {E : MemoryError → Phase MemoryTables → Prop} :
    (query stmt).holds (rules s args) Q E (.inside b w) ↔ ∀ draw, match meaning draw stmt w with
      | (.ok value,w) => Q value (.inside b w)
      | (.error error,w) => E error (.inside b w) := by
  rw [query,Program.holds_call]
  refine forall_congr' fun draw => ?_
  cases meaning draw stmt w with
  | mk answer w => cases answer <;> exact Iff.rfl

theorem mem_of_update {t u : Curated} {r r' : MemoryRow} (updated : t.update r = .ok u) (inside : r' ∈ u.table.rows) :
    r' = r ∨ r' ∈ t.table.rows := by
  unfold Curated.update at updated
  split at updated
  · cases updated
    exact (Table.mem_put inside).imp_right And.left
  · cases updated

theorem mem_of_insert {t u : Curated} {r r' : MemoryRow} (inserted : t.insert r = .ok u) (inside : r' ∈ u.table.rows) :
    r' = r ∨ r' ∈ t.table.rows := by
  unfold Curated.insert at inserted
  split at inserted
  · cases inserted
  · rename_i table added
    split at inserted
    · cases inserted
    · cases inserted
      rw [(Table.insert?_eq_some_iff.mp added).2,List.mem_append,List.mem_singleton] at inside
      exact inside.symm

/-- What an operation leaves: its effect on the entries, all of them readable. -/
def After (s : Settings) (b w : MemoryTables) (op : MemoryOperation) (phase : Phase MemoryTables) : Prop :=
  ∃ w', phase = .inside b w' ∧ w'.revision = w.revision ∧ Effect s op w.entries w'.entries ∧
    ∀ r ∈ w'.entries.table.rows, r.Readable

theorem duplicate_holds {Q : Unit → Phase MemoryTables → Prop} (error : MemoryError) {phase : Phase MemoryTables}
    (working : Working b phase) :
    (MemoryStore.duplicate error).holds (rules s args) Q (fun _ => Working b) phase := by
  unfold MemoryStore.duplicate
  split <;> exact working

variable (readable : ∀ r ∈ w.entries.table.rows, r.Readable)
include readable

theorem add_holds {entry : EntryInput} {clean : Clean} {n : MemoryNamespace} {at_ : ℤ} (validated : validate s entry = .ok clean)
    (named : MemoryNamespace.ofText entry.namespace_ = some n) (safe : safeInteger (.num at_) = some at_) :
    (MemoryStore.add n clean at_).holds (rules s args) (fun _ => After s b w (.add entry)) (fun _ => Working b) (.inside b w) := by
  unfold MemoryStore.add
  rw [Program.holds_bind,query_holds]
  intro draw
  simp only [meaning]
  rw [query_holds]
  intro _
  simp only [meaning]
  cases inserted : w.entries.insert ⟨draw.uuid,n,clean.value,clean.normalized,written clean.provenance,at_,at_⟩ with
  | error error => exact ⟨w,rfl⟩
  | ok entries =>
    refine ⟨_,rfl,rfl,.add validated named inserted,?_⟩
    intro r inside
    obtain rfl | old := mem_of_insert inserted inside
    · exact ⟨⟨_,rfl⟩,safe,safe⟩
    · exact readable r old

theorem replace_holds {id : String} {entry : EntryInput} {clean : Clean} {n : MemoryNamespace} {at_ : ℤ}
    (validated : validate s entry = .ok clean) (named : MemoryNamespace.ofText entry.namespace_ = some n)
    (safe : safeInteger (.num at_) = some at_) :
    (MemoryStore.replace id n clean at_).holds (rules s args) (fun _ => After s b w (.replace id entry)) (fun _ => Working b)
      (.inside b w) := by
  unfold MemoryStore.replace
  rw [Program.holds_bind,query_holds]
  intro _
  simp only [meaning]
  cases found : w.entries.table.find? id with
  | none => exact ⟨w,rfl⟩
  | some r =>
    simp only [Option.map_some,ofOption]
    rw [Program.holds_bind]
    change Program.holds _ (do reject _ _; _) _ _ _
    rw [Program.holds_bind,Program.holds_reject]
    refine ⟨fun _ => ⟨w,rfl⟩,fun same => ?_⟩
    rw [query_holds]
    intro _
    have same : r.namespace_ = n := by simpa using same
    simp only [meaning,found]
    cases updated : w.entries.update { r with
        value := clean.value
        normalizedValue := clean.normalized
        provenanceJson := written clean.provenance
        updatedAt := at_ } with
    | error error => exact ⟨w,rfl⟩
    | ok entries =>
      refine ⟨_,rfl,rfl,.replace validated found (same ▸ named) updated,?_⟩
      intro r' inside
      obtain rfl | old := mem_of_update updated inside
      · exact ⟨⟨_,rfl⟩,(readable r (Table.mem_of_find? found)).createdAt,safe⟩
      · exact readable r' old

omit readable in
theorem put_holds {entry : EntryInput} {op : MemoryOperation} {store : MemoryNamespace → Clean → ℤ → MemoryProgram Unit}
    (stores : ∀ clean n at_, validate s entry = .ok clean → MemoryNamespace.ofText entry.namespace_ = some n →
      safeInteger (.num at_) = some at_ →
      (store n clean at_).holds (rules s args) (fun _ => After s b w op) (fun _ => Working b) (.inside b w)) :
    (MemoryStore.put s entry store).holds (rules s args) (fun _ => After s b w op) (fun _ => Working b) (.inside b w) := by
  unfold MemoryStore.put
  rw [Program.holds_bind,Program.holds_ofExcept]
  refine ⟨fun clean validated => ?_,fun _ _ => ⟨w,rfl⟩⟩
  cases named : MemoryNamespace.ofText entry.namespace_ with
  | none => exact ⟨w,rfl⟩
  | some n =>
    rw [Program.holds_bind]
    change Program.holds _ (do let now ← query .now; _) _ _ _
    rw [Program.holds_bind,query_holds]
    intro draw
    simp only [meaning]
    cases draw.now with
    | error error => exact ⟨w,rfl⟩
    | ok now =>
      simp only
      cases clock : safeInteger now with
      | none => exact ⟨w,rfl⟩
      | some at_ =>
        change Program.holds _ (tryCatch _ _) _ _ _
        rw [Program.holds_tryCatch]
        refine Program.holds_mono spec_mono _ (stores clean n at_ validated named ?_) (fun _ _ after => after) fun error phase => ?_
        · exact safeInteger_num clock
        · exact duplicate_holds error

theorem operation_holds (op : MemoryOperation) :
    (MemoryStore.operation s op).holds (rules s args) (fun _ => After s b w op) (fun _ => Working b) (.inside b w) := by
  cases op with
  | add entry => exact put_holds fun _ _ _ validated named safe => add_holds readable validated named safe
  | replace id entry => exact put_holds fun _ _ _ validated named safe => replace_holds readable validated named safe
  | remove id namespace_ =>
    unfold MemoryStore.operation
    rw [Program.holds_bind,query_holds]
    intro _
    simp only [meaning,Program.holds_reject]
    refine ⟨fun _ => ⟨_,rfl⟩,fun one => ⟨_,rfl,rfl,.remove (by simpa using one),?_⟩⟩
    intro r inside
    exact readable r (List.mem_of_mem_filter inside)

theorem operations_holds (ops : List MemoryOperation) :
    (ops.forM (MemoryStore.operation s)).holds (rules s args)
      (fun _ phase => ∃ w', phase = .inside b w' ∧ w'.revision = w.revision ∧ Effects s ops w.entries w'.entries ∧
        ∀ r ∈ w'.entries.table.rows, r.Readable) (fun _ => Working b) (.inside b w) := by
  induction ops generalizing w with
  | nil => exact ⟨w,rfl,rfl,.nil,readable⟩
  | cons op ops ih =>
    refine Program.holds_then spec_mono (operation_holds readable op) ?_
    rintro _ _ ⟨w',rfl,revision,effect,readable'⟩
    refine Program.holds_mono spec_mono _ (ih readable') ?_ fun _ _ thrown => thrown
    rintro _ _ ⟨w'',rfl,revision',effects,readable''⟩
    exact ⟨w'',rfl,revision'.trans revision,.cons effect effects,readable''⟩

theorem select_readable (n : Option MemoryNamespace) : ∀ r ∈ w.entries.select n, r.Readable :=
  fun r inside => readable r (Table.mem_select.mp inside).1

theorem checkBudget_holds (n : MemoryNamespace) :
    (MemoryStore.checkBudget s n).holds (rules s args)
      (fun _ phase => phase = .inside b w ∧ w.entries.bytes n ≤ s.budgets n) (fun _ => Working b) (.inside b w) := by
  obtain ⟨entries,read,same⟩ := mapM_of_readable (select_readable readable (some n))
  unfold MemoryStore.checkBudget MemoryStore.list
  rw [Program.holds_bind,Program.holds_bind,query_holds]
  intro _
  simp only [meaning,read,Program.holds_ofExcept]
  refine ⟨?_,by simp⟩
  rintro _ ⟨⟩
  rw [Program.holds_reject,same]
  exact ⟨fun _ => ⟨w,rfl⟩,fun within => ⟨rfl,Nat.le_of_not_lt within⟩⟩

theorem checkBudgets_holds :
    ([MemoryNamespace.user,.agent].forM (MemoryStore.checkBudget s)).holds (rules s args)
      (fun _ phase => phase = .inside b w ∧ ∀ n, w.entries.bytes n ≤ s.budgets n) (fun _ => Working b) (.inside b w) := by
  refine Program.holds_then spec_mono (checkBudget_holds readable .user) ?_
  rintro _ _ ⟨rfl,user⟩
  refine Program.holds_then spec_mono (checkBudget_holds readable .agent) ?_
  rintro _ _ ⟨rfl,agent⟩
  refine ⟨rfl,fun n => ?_⟩
  cases n with
  | user => exact user
  | agent => exact agent

omit readable in
theorem revision_holds {Q : ℤ → Phase MemoryTables → Prop} (read : Q w.revision (.inside b w)) :
    MemoryStore.revision.holds (rules s args) Q (fun _ => Working b) (.inside b w) := by
  unfold MemoryStore.revision
  rw [Program.holds_bind,query_holds]
  intro _
  by_cases range : Execution.SafeInteger w.revision
  · simp only [meaning,if_pos range]
    cases safe : safeInteger (.num w.revision) with
    | none => exact ⟨w,rfl⟩
    | some n => exact (eq_of_safeInteger safe).symm ▸ read
  · simp only [meaning,if_neg range]
    exact ⟨w,rfl⟩

end Programs

/-- A call that returns has committed its batch; one that throws has committed nothing. -/
def Returned (r : BatchResult) (phase : Phase MemoryTables) : Prop := ∃ b a, phase = .done b a ∧ r.revision = a.revision

/-- What `list` reads after the commit, whoever has committed since. -/
theorem list_holds {s : Settings} {args : Json × List MemoryOperation} {b a : MemoryTables}
    {Q : List MemoryEntry → Phase MemoryTables → Prop} {E : MemoryError → Phase MemoryTables → Prop}
    (returns : ∀ entries, Q entries (.done b a)) :
    (MemoryStore.list none).holds (rules s args) Q E (.done b a) := by
  unfold MemoryStore.list
  rw [Program.holds_bind,query,Program.holds_call]
  intro draw d valid
  obtain ⟨entries,read,_⟩ := mapM_of_readable (select_readable valid.readable none)
  simp only [meaning,and_true,read,Program.holds_ofExcept]
  refine ⟨?_,by simp⟩
  rintro _ ⟨⟩
  exact returns entries

theorem transaction_holds (s : Settings) {args : Json × List MemoryOperation} {expected : ℤ} {d : MemoryTables}
    (safe : safeInteger args.1 = some expected) (valid : Valid s d) :
    (do
      let current ← MemoryStore.revision
      reject (current ≠ expected) (.store .REVISION_CONFLICT "Memory revision conflict")
      args.2.forM (MemoryStore.operation s)
      [MemoryNamespace.user,.agent].forM (MemoryStore.checkBudget s)
      query (.setRevision (expected + 1))
      call Op.commit
      return (⟨expected + 1,← MemoryStore.list none⟩ : BatchResult) : MemoryProgram BatchResult).holds
      (rules s args) Returned (fun _ => Working d) (.inside d d) := by
  rw [Program.holds_bind]
  apply revision_holds
  rw [Program.holds_bind,Program.holds_reject]
  refine ⟨fun _ => ⟨d,rfl⟩,fun same => ?_⟩
  have same : d.revision = expected := by simpa using same
  refine Program.holds_then spec_mono (operations_holds valid.readable args.2) ?_
  rintro _ _ ⟨w,rfl,revision,effects,readable⟩
  refine Program.holds_then spec_mono (checkBudgets_holds readable) ?_
  rintro _ _ ⟨rfl,within⟩
  rw [Program.holds_bind,query_holds]
  intro _
  simp only [meaning]
  rw [Program.holds_bind,Program.holds_call]
  refine ⟨⟨safe.trans (congrArg some same.symm),by simp [same],effects,⟨readable,within⟩⟩,?_⟩
  change Program.holds _ (MemoryStore.list none >>= _) _ _ _
  rw [Program.holds_bind]
  exact list_holds fun entries => ⟨_,_,rfl,rfl⟩

theorem applyBatch_holds (s : Settings) (args : Json × List MemoryOperation) :
    (MemoryStore.applyBatch s args.1 args.2).holds (rules s args) Returned (fun _ phase => phase = .idle) .idle := by
  unfold MemoryStore.applyBatch
  cases safe : safeInteger args.1 with
  | none => exact rfl
  | some expected =>
    rw [Program.holds_bind]
    change Program.holds _ (do reject _ _; _) _ _ _
    rw [Program.holds_bind,Program.holds_reject]
    refine ⟨fun _ => rfl,fun _ => ?_⟩
    rw [Program.holds_bind,Program.holds_call]
    refine ⟨rfl,fun d valid => ?_⟩
    change Program.holds _ (tryCatch _ _) _ _ _
    rw [Program.holds_tryCatch]
    refine Program.holds_mono spec_mono _ (transaction_holds s safe valid) (fun _ _ returned => returned) ?_
    rintro error _ ⟨w,rfl⟩
    rw [Program.holds_bind,Program.holds_tryCatch,Program.holds_call]
    exact rfl

theorem run_sound (s : Settings) (events : List (Transactions.Event (Json × List MemoryOperation) Draw)) :
    Sound meaning busy misuse (Valid s) (Batch s) (fun _ => Returned) (fun _ _ phase => phase = .idle) .empty
      (MemoryStore.run s events) := by
  apply Sound.run (fun _ _ _ _ batch => batch.valid) (applyBatch_holds s)
  apply Sound.initial
  refine ⟨by simp [MemoryTables.empty,Curated.empty],fun n => ?_⟩
  simp [MemoryTables.empty,Curated.empty,Curated.bytes,Curated.select,Table.select]

/-- The revisions of a chain of batches, oldest first. -/
theorem revisions {s : Settings} {commits : List (Commit MemoryTables (Json × List MemoryOperation))} {d : MemoryTables}
    (chain : Chain (Batch s) .empty commits d) :
    d.revision = commits.length ∧
      commits.reverse.map (fun commit => commit.after.revision) = (List.range' 1 commits.length).map Nat.cast := by
  induction chain with
  | start => exact ⟨rfl,rfl⟩
  | commit earlier batch ih =>
    obtain ⟨last,ih⟩ := ih
    refine ⟨by simp [batch.revision,last],?_⟩
    rw [List.reverse_cons,List.map_append,ih,List.length_cons,List.range'_concat,List.map_append]
    simp [batch.revision,last,Int.add_comm]

/-- Whatever the calls of `applyBatch` on one database do, and in whatever order their
statements come: the committed batches form a chain, each computed from the entries the one
before it left, at the revisions 1, 2, 3 and so on; the committed entries are unique and within
their budgets; a call that throws has committed nothing and holds no transaction; one that
returns has committed its own batch, at the revision it returns. -/
theorem MemoryStore.batches_atomic (s : Settings) (events : List (Transactions.Event (Json × List MemoryOperation) Draw)) :
    Chain (Batch s) .empty (run s events).commits (run s events).committed ∧
      (run s events).commits.reverse.map (fun commit => commit.after.revision) =
        (List.range' 1 (run s events).commits.length).map Nat.cast ∧
      ((run s events).committed.entries.table.rows.map MemoryRow.slot).Nodup ∧
      (∀ n, (run s events).committed.entries.bytes n ≤ s.budgets n) ∧
      (∀ i args error, (run s events).calls i = some ⟨args,.throw error⟩ →
        (run s events).working i = none ∧ ∀ commit ∈ (run s events).commits, commit.call ≠ i) ∧
      ∀ i args result, (run s events).calls i = some ⟨args,.pure result⟩ →
        ∃ commit ∈ (run s events).commits, commit.call = i ∧ commit.args = args ∧ commit.after.revision = result.revision := by
  have sound := run_sound s events
  refine ⟨sound.book.chain,(revisions sound.book.chain).2,(run s events).committed.entries.unique,
    sound.book.valid.within,?_,?_⟩
  · intro i args error found
    exact phase_eq_idle (sound.obeys i _ found)
  · intro i args result found
    obtain ⟨b,a,done,same⟩ := sound.obeys i _ found
    obtain ⟨commit,inside,own,_,rfl⟩ := phase_eq_done done
    exact ⟨commit,inside,own,(sound.named commit inside _ (own.symm ▸ found)).symm,same.symm⟩

end RatifyOs.Memory
