import Mathlib.Data.Nat.Notation
import RatifyOs.Async.Crash
import RatifyOs.Data.Run

/-! Calls on one database whose transactions exclude each other. What a transaction has
written is its own until it commits; what each is to guarantee from the data it began with to
the data it commits then holds from one committed state to the next. -/
namespace RatifyOs.Async.Transactions

variable {Stmt : Type} {Ans : Stmt → Type} {ε δ α κ χ : Type}

inductive Op (Stmt : Type) where
  | begin_
  | commit
  | rollback
  | statement (stmt : Stmt)

abbrev Answer (Ans : Stmt → Type) : Op Stmt → Type
  | .statement stmt => Ans stmt
  | _ => Unit

abbrev Script (Ans : Stmt → Type) (ε α : Type) := Program (Op Stmt) (Answer Ans) ε α

/-- A call in flight or finished, with what it was called with. -/
structure Call (Ans : Stmt → Type) (ε α κ : Type) where
  args : κ
  script : Script Ans ε α

structure Commit (δ κ : Type) where
  call : ℕ
  args : κ
  before : δ
  after : δ

/-- The database with the calls on it. The writer has a copy of its own; `commits` is the
newest first. -/
structure Site (Ans : Stmt → Type) (ε α κ δ : Type) where
  committed : δ
  writer : Option (ℕ × δ)
  calls : ℕ → Option (Call Ans ε α κ)
  count : ℕ
  commits : List (Commit δ κ)

def Site.initial (d : δ) : Site Ans ε α κ δ := ⟨d,none,fun _ => none,0,[]⟩

/-- What happens next; a call may die with its process, which takes back what it has not
committed. -/
inductive Event (κ χ : Type) where
  | start (args : κ)
  | perform (call : ℕ) (choice : χ)
  | die (call : ℕ)

section Step
variable (program : κ → Script Ans ε α) (meaning : χ → (stmt : Stmt) → δ → Except ε (Ans stmt) × δ) (busy misuse : ε)

/-- The working copy of the call, if it is the writer. -/
def Site.working (c : Site Ans ε α κ δ) (i : ℕ) : Option δ := (c.writer.filter fun w => w.1 = i).map Prod.snd

def performOp (c : Site Ans ε α κ δ) (i : ℕ) (args : κ) (choice : χ) : (op : Op Stmt) → Except ε (Answer Ans op) × Site Ans ε α κ δ
  | .begin_ =>
    match c.writer with
    | none => (.ok (),{ c with writer := some (i,c.committed) })
    | some _ => (.error busy,c)
  | .commit =>
    match c.working i with
    | some w => (.ok (),{ c with committed := w, writer := none, commits := ⟨i,args,c.committed,w⟩ :: c.commits })
    | none => (.error misuse,c)
  | .rollback =>
    match c.working i with
    | some _ => (.ok (),{ c with writer := none })
    | none => (.error misuse,c)
  | .statement stmt =>
    match c.working i with
    | some w => ((meaning choice stmt w).1,{ c with writer := some (i,(meaning choice stmt w).2) })
    | none => ((meaning choice stmt c.committed).1,{ c with committed := (meaning choice stmt c.committed).2 })

def step (c : Site Ans ε α κ δ) : Event κ χ → Site Ans ε α κ δ
  | .start args => { c with calls := Function.update c.calls c.count (some ⟨args,program args⟩), count := c.count + 1 }
  | .perform i choice =>
    match c.calls i with
    | some ⟨args,.perform op next⟩ =>
      let result := performOp meaning busy misuse c i args choice op
      { result.2 with calls := Function.update c.calls i (some ⟨args,next result.1⟩) }
    | _ => c
  | .die i =>
    { c with calls := Function.update c.calls i none, writer := c.writer.filter fun w => w.1 ≠ i }

end Step

/-- How far a call has come: it has no transaction, is in one, or has committed one. -/
inductive Phase (δ : Type) where
  | idle
  | inside (before working : δ)
  | done (before after : δ)

section Logic
variable (meaning : χ → (stmt : Stmt) → δ → Except ε (Ans stmt) × δ) (busy misuse : ε)

/-- What an effect asks of the phase of its call, where every committed state satisfies `I`
and a commit is to be as `G` says. Outside of a transaction a call reads only. -/
def spec (I : δ → Prop) (G : δ → δ → Prop) : Program.Spec (Op Stmt) (Answer Ans) ε (Phase δ)
  | .begin_, P, .idle => P (.error busy) .idle ∧ ∀ d, I d → P (.ok ()) (.inside d d)
  | .begin_, P, .inside b w => P (.error busy) (.inside b w)
  | .begin_, _, .done _ _ => False
  | .commit, P, .inside b w => G b w ∧ P (.ok ()) (.done b w)
  | .commit, P, phase => P (.error misuse) phase
  | .rollback, P, .inside _ _ => P (.ok ()) .idle
  | .rollback, P, phase => P (.error misuse) phase
  | .statement stmt, P, .inside b w => ∀ choice, P (meaning choice stmt w).1 (.inside b (meaning choice stmt w).2)
  | .statement stmt, P, phase => ∀ choice d, I d → P (meaning choice stmt d).1 phase ∧ (meaning choice stmt d).2 = d

variable {meaning busy misuse} {I : δ → Prop} {G : δ → δ → Prop}

theorem spec_mono : Program.Spec.Monotone (spec meaning busy misuse I G) := by
  intro op P P' phase weaker good
  cases op with
  | begin_ =>
    cases phase with
    | idle => exact ⟨weaker _ _ good.1,fun d holds => weaker _ _ (good.2 d holds)⟩
    | inside b w => exact weaker _ _ good
    | done b a => exact good
  | commit =>
    cases phase with
    | inside b w => exact ⟨good.1,weaker _ _ good.2⟩
    | idle => exact weaker _ _ good
    | done b a => exact weaker _ _ good
  | rollback => cases phase <;> exact weaker _ _ good
  | statement stmt =>
    cases phase with
    | inside b w => exact fun choice => weaker _ _ (good choice)
    | idle => exact fun choice d holds => ⟨weaker _ _ (good choice d holds).1,(good choice d holds).2⟩
    | done b a => exact fun choice d holds => ⟨weaker _ _ (good choice d holds).1,(good choice d holds).2⟩

end Logic

section Sound
variable (program : κ → Script Ans ε α) (meaning : χ → (stmt : Stmt) → δ → Except ε (Ans stmt) × δ) (busy misuse : ε)
  (I : δ → Prop) (G : κ → δ → δ → Prop) (Q : κ → α → Phase δ → Prop) (E : κ → ε → Phase δ → Prop)

/-- How far the call of this number has come. -/
def Site.phase (c : Site Ans ε α κ δ) (i : ℕ) : Phase δ :=
  match c.working i with
  | some w => .inside c.committed w
  | none =>
    match c.commits.find? fun commit => commit.call = i with
    | some commit => .done commit.before commit.after
    | none => .idle

/-- One commit after the other, each of what the one before it left. -/
inductive Chain (G : κ → δ → δ → Prop) (first : δ) : List (Commit δ κ) → δ → Prop where
  | start : Chain G first [] first
  | commit {commits : List (Commit δ κ)} {before after : δ} {call : ℕ} {args : κ} (earlier : Chain G first commits before)
      (guaranteed : G args before after) : Chain G first (⟨call,args,before,after⟩ :: commits) after

/-- What holds of the database whatever the calls do next. -/
structure Book (first : δ) (c : Site Ans ε α κ δ) : Prop where
  valid : I c.committed
  chain : Chain G first c.commits c.committed
  writer_known : ∀ w ∈ c.writer, w.1 < c.count
  commits_known : ∀ commit ∈ c.commits, commit.call < c.count
  writer_new : ∀ w ∈ c.writer, ∀ commit ∈ c.commits, commit.call ≠ w.1

structure Sound (first : δ) (c : Site Ans ε α κ δ) : Prop where
  book : Book I G first c
  fresh : ∀ i, c.count ≤ i → c.calls i = none
  named : ∀ commit ∈ c.commits, ∀ call, c.calls commit.call = some call → call.args = commit.args
  obeys : ∀ i call, c.calls i = some call →
    call.script.holds (spec meaning busy misuse I (G call.args)) (Q call.args) (E call.args) (c.phase i)

variable {program meaning busy misuse I G Q E} {first : δ} {c r : Site Ans ε α κ δ}

theorem working_eq_some {i : ℕ} {w : δ} : c.working i = some w ↔ c.writer = some (i,w) := by
  unfold Site.working
  cases c.writer with
  | none => simp
  | some writer =>
    obtain ⟨j,v⟩ := writer
    by_cases same : j = i <;> simp [Option.filter,same]

theorem phase_of_working {i : ℕ} {w : δ} (working : c.working i = some w) : c.phase i = .inside c.committed w := by
  simp only [Site.phase,working]

theorem phase_of_none {i : ℕ} (none_ : c.working i = none) :
    c.phase i = match c.commits.find? fun commit => commit.call = i with
      | some commit => .done commit.before commit.after
      | none => .idle := by
  simp only [Site.phase,none_]

theorem phase_ne_inside {i : ℕ} (none_ : c.working i = none) (b w : δ) : c.phase i ≠ .inside b w := by
  rw [phase_of_none none_]
  split <;> simp

theorem phase_outside {motive : Phase δ → Prop} {i : ℕ} (none_ : c.working i = none) (idle : motive .idle)
    (done : ∀ b a, motive (.done b a)) : motive (c.phase i) := by
  rw [phase_of_none none_]
  split
  · exact done _ _
  · exact idle

/-- A call without a transaction has no other phase for what the writer does. -/
theorem phase_congr {i : ℕ} (before : c.working i = none) (after : r.working i = none)
    (commits : (r.commits.find? fun commit => commit.call = i) = c.commits.find? fun commit => commit.call = i) :
    r.phase i = c.phase i := by
  rw [phase_of_none before,phase_of_none after,commits]

theorem working_other {i j : ℕ} {w : δ} (writer : c.writer = some (i,w)) (other : j ≠ i) : c.working j = none := by
  cases found : c.working j with
  | none => rfl
  | some v =>
    rw [working_eq_some,writer] at found
    simp only [Option.some.injEq,Prod.mk.injEq] at found
    exact absurd found.1.symm other

theorem working_none {j : ℕ} (writer : c.writer = none) : c.working j = none := by
  simp [Site.working,writer]

/-- A call in a transaction has committed none before it. -/
theorem Book.uncommitted (book : Book I G first c) {i : ℕ} {w : δ} (writer : c.writer = some (i,w)) :
    (c.commits.find? fun commit => commit.call = i) = none := by
  rw [List.find?_eq_none]
  intro commit member
  simpa using book.writer_new (i,w) writer commit member

theorem uncommitted_of_idle {i : ℕ} (idle : c.phase i = .idle) : ∀ commit ∈ c.commits, commit.call ≠ i := by
  cases working : c.working i with
  | some w => simp [phase_of_working working] at idle
  | none =>
    rw [phase_of_none working] at idle
    split at idle
    · cases idle
    · rename_i none_
      simpa using none_

theorem Sound.initial (holds : I first) : Sound meaning busy misuse I G Q E first (Site.initial first : Site Ans ε α κ δ) where
  book := ⟨holds,.start,by simp [Site.initial],by simp [Site.initial],by simp [Site.initial]⟩
  fresh := by simp [Site.initial]
  named := by simp [Site.initial]
  obeys := by simp [Site.initial]

/-- What the performed effect leaves: the books in order, what it asked met, and every other
call where it was. -/
structure Performed (first : δ) (c : Site Ans ε α κ δ) (i : ℕ) (args : κ) {op : Op Stmt} (P : Except ε (Answer Ans op) → Phase δ → Prop)
    (result : Except ε (Answer Ans op) × Site Ans ε α κ δ) : Prop where
  book : Book I G first result.2
  met : P result.1 (result.2.phase i)
  calls : result.2.calls = c.calls
  count : result.2.count = c.count
  commits : ∀ commit ∈ result.2.commits, commit ∈ c.commits ∨ commit.call = i ∧ commit.args = args
  others : ∀ j ≠ i, result.2.phase j = c.phase j

section Perform
variable (book : Book I G first c) {i : ℕ} {args : κ} {choice : χ} (here : i < c.count)
include book

include here in
theorem performed_begin {P : Except ε (Answer Ans (.begin_ : Op Stmt)) → Phase δ → Prop}
    (asks : spec meaning busy misuse I (G args) .begin_ P (c.phase i)) :
    Performed (I := I) (G := G) first c i args P (performOp meaning busy misuse c i args choice .begin_) := by
  cases writer : c.writer with
  | some w =>
    simp only [performOp,writer]
    refine ⟨book,?_,rfl,rfl,fun _ => .inl,fun _ _ => rfl⟩
    revert asks
    cases c.phase i with
    | idle => exact fun asks => asks.1
    | inside b w => exact fun asks => asks
    | done b a => exact False.elim
  | none =>
    simp only [performOp,writer]
    have idle : c.phase i = .idle := by
      cases phase : c.phase i with
      | idle => rfl
      | inside b w => exact absurd phase (phase_ne_inside (working_none writer) b w)
      | done b a =>
        rw [phase] at asks
        exact asks.elim
    have new : ∀ commit ∈ c.commits, commit.call ≠ i := uncommitted_of_idle idle
    rw [idle] at asks
    refine ⟨⟨book.valid,book.chain,?_,book.commits_known,?_⟩,?_,rfl,rfl,fun _ => .inl,?_⟩
    · simpa using here
    · simpa using new
    · rw [phase_of_working (working_eq_some.mpr rfl)]
      exact asks.2 _ book.valid
    · intro j other
      exact phase_congr (working_none writer) (working_other rfl other) rfl

include here in
theorem performed_commit {P : Except ε (Answer Ans (.commit : Op Stmt)) → Phase δ → Prop} (keeps : ∀ b a, I b → G args b a → I a)
    (asks : spec meaning busy misuse I (G args) .commit P (c.phase i)) :
    Performed (I := I) (G := G) first c i args P (performOp meaning busy misuse c i args choice .commit) := by
  cases working : c.working i with
  | none =>
    simp only [performOp,working]
    refine ⟨book,?_,rfl,rfl,fun _ => .inl,fun _ _ => rfl⟩
    exact phase_outside (motive := fun phase => spec meaning busy misuse I (G args) .commit P phase → P _ phase) working
      id (fun _ _ => id) asks
  | some w =>
    have writer : c.writer = some (i,w) := working_eq_some.mp working
    simp only [performOp,working]
    rw [phase_of_working working] at asks
    refine ⟨⟨keeps _ _ book.valid asks.1,.commit book.chain asks.1,by simp,?_,by simp⟩,?_,rfl,rfl,?_,?_⟩
    · simpa using ⟨here,book.commits_known⟩
    · rw [phase_of_none (working_none rfl)]
      simpa using asks.2
    · intro commit member
      obtain rfl | old := List.mem_cons.mp member
      · exact .inr ⟨rfl,rfl⟩
      · exact .inl old
    · intro j other
      apply phase_congr (working_other writer other) (working_none rfl)
      rw [List.find?_cons_of_neg]
      simpa using fun same : i = j => other same.symm

theorem performed_rollback {P : Except ε (Answer Ans (.rollback : Op Stmt)) → Phase δ → Prop}
    (asks : spec meaning busy misuse I (G args) .rollback P (c.phase i)) :
    Performed (I := I) (G := G) first c i args P (performOp meaning busy misuse c i args choice .rollback) := by
  cases working : c.working i with
  | none =>
    simp only [performOp,working]
    refine ⟨book,?_,rfl,rfl,fun _ => .inl,fun _ _ => rfl⟩
    exact phase_outside (motive := fun phase => spec meaning busy misuse I (G args) .rollback P phase → P _ phase) working
      id (fun _ _ => id) asks
  | some w =>
    have writer : c.writer = some (i,w) := working_eq_some.mp working
    simp only [performOp,working]
    rw [phase_of_working working] at asks
    refine ⟨⟨book.valid,book.chain,by simp,book.commits_known,by simp⟩,?_,rfl,rfl,fun _ => .inl,?_⟩
    · rw [phase_of_none (working_none rfl)]
      simp only [book.uncommitted writer]
      exact asks
    · intro j other
      exact phase_congr (working_other writer other) (working_none rfl) rfl

include here in
theorem performed_statement {stmt : Stmt} {P : Except ε (Answer Ans (.statement stmt)) → Phase δ → Prop}
    (asks : spec meaning busy misuse I (G args) (.statement stmt) P (c.phase i)) :
    Performed (I := I) (G := G) first c i args P
      (performOp meaning busy misuse c i args choice (.statement stmt)) := by
  cases working : c.working i with
  | none =>
    have reads : P (meaning choice stmt c.committed).1 (c.phase i) ∧ (meaning choice stmt c.committed).2 = c.committed :=
      phase_outside (motive := fun phase => spec meaning busy misuse I (G args) (.statement stmt) P phase → P _ phase ∧ _)
        working (fun asks => asks choice _ book.valid) (fun _ _ asks => asks choice _ book.valid) asks
    simp only [performOp,working,reads.2]
    exact ⟨book,reads.1,rfl,rfl,fun _ => .inl,fun _ _ => rfl⟩
  | some w =>
    have writer : c.writer = some (i,w) := working_eq_some.mp working
    simp only [performOp,working]
    rw [phase_of_working working] at asks
    refine ⟨⟨book.valid,book.chain,by simpa using here,book.commits_known,?_⟩,?_,rfl,rfl,fun _ => .inl,?_⟩
    · simpa using book.writer_new _ writer
    · rw [phase_of_working (working_eq_some.mpr rfl)]
      exact asks choice
    · intro j other
      exact phase_congr (working_other writer other) (working_other rfl other) rfl

variable (choice) in
include here in
theorem performed (op : Op Stmt) {P : Except ε (Answer Ans op) → Phase δ → Prop} (keeps : ∀ b a, I b → G args b a → I a)
    (asks : spec meaning busy misuse I (G args) op P (c.phase i)) :
    Performed (I := I) (G := G) first c i args P (performOp meaning busy misuse c i args choice op) := by
  cases op with
  | begin_ => exact performed_begin book here asks
  | commit => exact performed_commit book here keeps asks
  | rollback => exact performed_rollback book asks
  | statement stmt => exact performed_statement book here asks

end Perform

section Runs
variable (keeps : ∀ args b a, I b → G args b a → I a)
  (scripts : ∀ args, (program args).holds (spec meaning busy misuse I (G args)) (Q args) (E args) .idle)

/-- A call that has not started is idle. -/
theorem Book.phase_fresh (book : Book I G first c) : c.phase c.count = .idle := by
  have none_ : c.working c.count = none := by
    cases working : c.working c.count with
    | none => rfl
    | some w => exact absurd (book.writer_known _ (working_eq_some.mp working)) (Nat.lt_irrefl _)
  have new : (c.commits.find? fun commit => commit.call = c.count) = none := by
    rw [List.find?_eq_none]
    intro commit member
    simpa using Nat.ne_of_lt (book.commits_known commit member)
  simp only [phase_of_none none_,new]

include keeps scripts in
theorem Sound.step (sound : Sound meaning busy misuse I G Q E first c) (event : Event κ χ) :
    Sound meaning busy misuse I G Q E first (step program meaning busy misuse c event) := by
  cases event with
  | start args =>
    refine ⟨⟨sound.book.valid,sound.book.chain,?_,?_,sound.book.writer_new⟩,?_,?_,?_⟩
    · exact fun w member => Nat.lt_succ_of_lt (sound.book.writer_known w member)
    · exact fun commit member => Nat.lt_succ_of_lt (sound.book.commits_known commit member)
    · intro i large
      have large : c.count < i := large
      simp only [Transactions.step]
      rw [Function.update_of_ne (Nat.ne_of_gt large)]
      exact sound.fresh i (Nat.le_of_lt large)
    · intro commit member call found
      simp only [Transactions.step] at found
      rw [Function.update_of_ne (Nat.ne_of_lt (sound.book.commits_known commit member))] at found
      exact sound.named commit member call found
    · intro i call found
      change call.script.holds _ _ _ (c.phase i)
      simp only [Transactions.step] at found
      by_cases here : i = c.count
      · subst here
        simp only [Function.update_self,Option.some.injEq] at found
        subst found
        rw [sound.book.phase_fresh]
        exact scripts args
      · rw [Function.update_of_ne here] at found
        exact sound.obeys i call found
  | perform i choice =>
    simp only [Transactions.step]
    split
    · rename_i args op next found
      have here : i < c.count := by
        by_contra large
        rw [sound.fresh i (Nat.le_of_not_lt large)] at found
        cases found
      have done := performed sound.book choice here op (keeps args) (sound.obeys i _ found)
      refine ⟨⟨done.book.valid,done.book.chain,done.book.writer_known,done.book.commits_known,done.book.writer_new⟩,?_,?_,?_⟩
      · intro j large
        have large : c.count ≤ j := done.count ▸ large
        change Function.update c.calls i _ j = none
        rw [Function.update_of_ne (Nat.ne_of_gt (Nat.lt_of_lt_of_le here large))]
        exact sound.fresh j large
      · intro commit member call found'
        change Function.update c.calls i _ commit.call = some call at found'
        by_cases same : commit.call = i
        · rw [same,Function.update_self,Option.some.injEq] at found'
          subst found'
          obtain old | ⟨_,its⟩ := done.commits commit member
          · exact sound.named commit old ⟨args,.perform op next⟩ (same ▸ found)
          · exact its.symm
        · rw [Function.update_of_ne same] at found'
          obtain old | ⟨here,_⟩ := done.commits commit member
          · exact sound.named commit old call found'
          · exact absurd here same
      · intro j call found'
        change Function.update c.calls i _ j = some call at found'
        by_cases same : j = i
        · subst same
          simp only [Function.update_self,Option.some.injEq] at found'
          subst found'
          exact done.met
        · rw [Function.update_of_ne same] at found'
          change call.script.holds _ _ _ ((performOp meaning busy misuse c i args choice op).2.phase j)
          rw [done.others j same]
          exact sound.obeys j call found'
    · exact sound
  | die i =>
    have kept : ∀ w ∈ c.writer.filter fun w => w.1 ≠ i, w ∈ c.writer := fun w member => (Option.mem_filter_iff.mp member).1
    refine ⟨⟨sound.book.valid,sound.book.chain,?_,sound.book.commits_known,?_⟩,?_,?_,?_⟩
    · exact fun w member => sound.book.writer_known w (kept w member)
    · exact fun w member => sound.book.writer_new w (kept w member)
    · intro j large
      simp only [Transactions.step]
      by_cases same : j = i
      · rw [same,Function.update_self]
      · rw [Function.update_of_ne same]
        exact sound.fresh j large
    · intro commit member call found
      simp only [Transactions.step] at found
      by_cases same : commit.call = i
      · rw [same,Function.update_self] at found
        cases found
      · rw [Function.update_of_ne same] at found
        exact sound.named commit member call found
    · intro j call found
      simp only [Transactions.step] at found
      have other : j ≠ i := by
        rintro rfl
        rw [Function.update_self] at found
        cases found
      rw [Function.update_of_ne other] at found
      have same : Site.phase (Transactions.step program meaning busy misuse c (.die i)) j = c.phase j := by
        have working : Site.working (Transactions.step program meaning busy misuse c (.die i)) j = c.working j := by
          simp only [Site.working,Transactions.step]
          cases c.writer with
          | none => rfl
          | some w => grind [Option.filter]
        simp only [Site.phase,working]
        rfl
      rw [same]
      exact sound.obeys j call found

include keeps scripts in
/-- Whatever the calls do and in whatever order, the books stay in order, and every call ends
as it is to. -/
theorem Sound.run (sound : Sound meaning busy misuse I G Q E first c) (events : List (Event κ χ)) :
    Sound meaning busy misuse I G Q E first (Data.Run.run (Transactions.step program meaning busy misuse) c events) := by
  induction events generalizing c with
  | nil => exact sound
  | cons event events ih => exact ih (sound.step keeps scripts event)

end Runs

theorem phase_eq_done {i : ℕ} {b a : δ} (done : c.phase i = .done b a) :
    ∃ commit ∈ c.commits, commit.call = i ∧ commit.before = b ∧ commit.after = a := by
  cases working : c.working i with
  | some w => simp [phase_of_working working] at done
  | none =>
    rw [phase_of_none working] at done
    split at done
    · rename_i commit found
      simp only [Phase.done.injEq] at done
      exact ⟨commit,List.mem_of_find?_eq_some found,by simpa using List.find?_some found,done.1,done.2⟩
    · cases done

theorem phase_eq_idle {i : ℕ} (idle : c.phase i = .idle) :
    c.working i = none ∧ ∀ commit ∈ c.commits, commit.call ≠ i := by
  refine ⟨?_,uncommitted_of_idle idle⟩
  cases working : c.working i with
  | some w => simp [phase_of_working working] at idle
  | none => rfl

end Sound

end RatifyOs.Async.Transactions
