import RatifyOs.Data.Result
import RatifyOs.Storage.SessionStore

/-! What is recorded is written once: whatever statements come, from whatever connections, a
row stays as it is, but for a run that ends. -/
namespace RatifyOs.Storage
open Data Async Async.Shared
open Async.Program (call ofOption reject)

/-- A run is as it was, or has ended since. -/
inductive RunRow.Later : RunRow → RunRow → Prop where
  | same (r : RunRow) : Later r r
  | ended {r : RunRow} (running : r.finished = none) (how : Completion × ℤ) : Later r { r with finished := some how }

/-- Rows are added only, and none changes but for a run that ends. -/
structure Extends (d d' : SessionTables) : Prop where
  sessions : d.sessions.rows <+: d'.sessions.rows
  messages : d.messages.table.rows <+: d'.messages.table.rows
  toolCalls : d.toolCalls.rows <+: d'.toolCalls.rows
  evidence : d.evidence.rows <+: d'.evidence.rows
  toolResults : d.toolResults.rows <+: d'.toolResults.rows
  runs : ∀ id r, d.runs.find? id = some r → ∃ r', d'.runs.find? id = some r' ∧ r.Later r'

namespace Extends

theorem refl (d : SessionTables) : Extends d d :=
  ⟨List.prefix_refl _,List.prefix_refl _,List.prefix_refl _,List.prefix_refl _,List.prefix_refl _,
    fun _ r found => ⟨r,found,.same r⟩⟩

theorem trans {d d' d'' : SessionTables} (first : Extends d d') (second : Extends d' d'') : Extends d d'' where
  sessions := first.sessions.trans second.sessions
  messages := first.messages.trans second.messages
  toolCalls := first.toolCalls.trans second.toolCalls
  evidence := first.evidence.trans second.evidence
  toolResults := first.toolResults.trans second.toolResults
  runs := by
    intro id r found
    obtain ⟨r',found',later⟩ := first.runs id r found
    obtain ⟨r'',found'',later'⟩ := second.runs id r' found'
    refine ⟨r'',found'',?_⟩
    cases later with
    | same => exact later'
    | ended running how =>
      cases later' with
      | same => exact .ended running how
      | ended ended => cases ended

end Extends

section Prefix
variable {κ ρ : Type} {key : ρ → κ} [DecidableEq κ]

theorem find?_of_grown {t u : Table key} (grown : t.rows <+: u.rows) {k : κ} {r : ρ} (found : t.find? k = some r) :
    u.find? k = some r := by
  obtain ⟨more,same⟩ := grown
  unfold Table.find? at found ⊢
  rw [← same,List.find?_append,found]
  rfl

theorem insertOrIgnore_ok {t u : Table key} {r : ρ} {unique references : Bool}
    (inserted : insertOrIgnore t r unique references = .ok u) : u = t ∨ t.insert? r = some u ∧ references = true := by
  unfold insertOrIgnore at inserted
  split at inserted
  · exact .inl (Except.ok.inj inserted).symm
  · rename_i v added
    split at inserted
    · split at inserted
      · rename_i there
        cases inserted
        exact .inr ⟨added,there⟩
      · cases inserted
    · exact .inl (Except.ok.inj inserted).symm

theorem insertOrIgnore_grown {t u : Table key} {r : ρ} {unique references : Bool}
    (inserted : insertOrIgnore t r unique references = .ok u) : t.rows <+: u.rows := by
  obtain rfl | ⟨added,_⟩ := insertOrIgnore_ok inserted
  · exact List.prefix_refl _
  · exact ⟨[r],(Table.insert?_eq_some_iff.mp added).2.symm⟩

theorem insertOrIgnore_error {t : Table key} {r : ρ} {unique references : Bool} {error : SessionError}
    (refused : insertOrIgnore t r unique references = .error error) : error = foreignKey := by
  unfold insertOrIgnore at refused
  split at refused
  · cases refused
  · split at refused
    · split at refused
      · cases refused
      · exact (Except.error.inj refused).symm
    · cases refused

theorem insertOrIgnore_of_taken {t : Table key} {r old : ρ} {unique references : Bool} (taken : t.find? (key r) = some old) :
    insertOrIgnore t r unique references = .ok t := by
  unfold insertOrIgnore
  cases inserted : t.insert? r with
  | none => rfl
  | some u =>
    rw [(Table.insert?_eq_some_iff.mp inserted).1] at taken
    cases taken

end Prefix

theorem resultOf_of_extends {d d' : SessionTables} (extends_ : Extends d d') {id : String} {r : ToolResultRow}
    (found : d.resultOf id = some r) : d'.resultOf id = some r := by
  obtain ⟨more,same⟩ := extends_.toolResults
  unfold SessionTables.resultOf at found ⊢
  rw [← same,List.find?_append,found]
  rfl

/-- A constraint of the schema that failed. -/
def Refused (error : SessionError) : Prop := ∃ message, error = .constraint message

section Writes
variable {d d' : SessionTables} {error : SessionError}

theorem bind_error {α β : Type} {p : Except SessionError α} {f : α → Except SessionError β} (failed : (p >>= f) = .error error) :
    p = .error error ∨ ∃ a, p = .ok a ∧ f a = .error error := by
  cases p with
  | error e => exact .inl (by cases failed; rfl)
  | ok a => exact .inr ⟨a,rfl,failed⟩

theorem refused_of_insert {κ ρ β : Type} {key : ρ → κ} [DecidableEq κ] {t : Table key} {r : ρ} {unique references : Bool}
    {f : Table key → β} (refused : (do return f (← insertOrIgnore t r unique references)) = .error error) : Refused error := by
  obtain refused | ⟨_,_,refused⟩ := bind_error refused
  · exact ⟨_,insertOrIgnore_error refused⟩
  · cases refused

theorem extends_written {result : Except SessionError SessionTables} (ok : ∀ d', result = .ok d' → Extends d d') :
    Extends d (written d result).2 := by
  cases result with
  | error e => exact Extends.refl d
  | ok d' => exact ok d' rfl

theorem insertSession_extends {i : NewSession} {at_ : ℤ} (ok : d.insertSession i at_ = .ok d') : Extends d d' := by
  obtain ⟨branch,_,ok⟩ := Result.bind_eq_ok.mp ok
  obtain ⟨sessions,inserted,ok⟩ := Result.bind_eq_ok.mp ok
  cases ok
  exact { Extends.refl d with sessions := insertOrIgnore_grown inserted }

theorem add?_rows {t u : Messages} {i : NewMessage} (added : t.add? i = some u) :
    u.table.rows = t.table.rows ++ [⟨i.id,i.sessionId,i.role,i.content,i.createdAt,t.last + 1⟩] := by
  unfold Messages.add? at added
  split at added
  · cases added
  · rename_i table inserted
    cases added
    exact (Table.insert?_eq_some_iff.mp inserted).2

theorem insertMessage_extends {i : NewMessage} (ok : d.insertMessage i = .ok d') : Extends d d' := by
  unfold SessionTables.insertMessage at ok
  split at ok
  · cases ok
    exact Extends.refl d
  · rename_i messages added
    split at ok
    · cases ok
      exact { Extends.refl d with messages := ⟨_,(add?_rows added).symm⟩ }
    · cases ok

theorem insertRun_extends {i : NewRun} (ok : d.insertRun i = .ok d') : Extends d d' := by
  unfold SessionTables.insertRun at ok
  split at ok
  · cases ok
  · obtain ⟨runs,inserted,ok⟩ := Result.bind_eq_ok.mp ok
    cases ok
    exact { Extends.refl d with
      runs := fun id r found => ⟨r,find?_of_grown (insertOrIgnore_grown inserted) found,.same r⟩ }

theorem updateRun_extends {id : String} {status : Completion} {finishedAt : ℤ} : Extends d (d.updateRun id status finishedAt) := by
  unfold SessionTables.updateRun
  split
  · rename_i r found
    split
    · rename_i running
      refine { Extends.refl d with runs := fun id' r' found' => ?_ }
      by_cases same : r.id = id'
      · have same' : r' = r := by
          have key := Table.key_of_find? found
          rw [← same,key,found] at found'
          exact (Option.some.inj found').symm
        subst same'
        exact ⟨_,by rw [Table.find?_put,if_pos same,found']; rfl,.ended running _⟩
      · exact ⟨r',by simpa [Table.find?_put,same] using found',.same r'⟩
    · exact Extends.refl d
  · exact Extends.refl d

theorem insertEvidence_extends {r : EvidenceRow} (ok : d.insertEvidence r = .ok d') : Extends d d' := by
  obtain ⟨evidence,inserted,ok⟩ := Result.bind_eq_ok.mp ok
  cases ok
  exact { Extends.refl d with evidence := insertOrIgnore_grown inserted }

theorem insertToolCall_extends {r : ToolCallRow} (ok : d.insertToolCall r = .ok d') : Extends d d' := by
  obtain ⟨toolCalls,inserted,ok⟩ := Result.bind_eq_ok.mp ok
  cases ok
  exact { Extends.refl d with toolCalls := insertOrIgnore_grown inserted }

theorem insertToolResult_extends {r : ToolResultRow} (ok : d.insertToolResult r = .ok d') : Extends d d' := by
  obtain ⟨toolResults,inserted,ok⟩ := Result.bind_eq_ok.mp ok
  cases ok
  exact { Extends.refl d with toolResults := insertOrIgnore_grown inserted }

/-- No statement changes what is there, but that a run may end. -/
theorem meaning_extends (now : ℤ) (stmt : Stmt) (d : SessionTables) : Extends d (meaning now stmt d).2 := by
  cases stmt with
  | insertSession i createdAt => exact extends_written fun _ => insertSession_extends
  | insertMessage i => exact extends_written fun _ => insertMessage_extends
  | insertRun i => exact extends_written fun _ => insertRun_extends
  | updateRun id status finishedAt => exact updateRun_extends
  | insertEvidence r => exact extends_written fun _ => insertEvidence_extends
  | insertToolCall r => exact extends_written fun _ => insertToolCall_extends
  | insertToolResult r => exact extends_written fun _ => insertToolResult_extends
  | now => exact Extends.refl d
  | selectSession id => exact Extends.refl d
  | selectMessage id => exact Extends.refl d
  | selectRun id => exact Extends.refl d
  | selectEvidence id => exact Extends.refl d
  | selectToolExchange id => exact Extends.refl d

theorem meaning_refused {now : ℤ} {stmt : Stmt} (failed : (meaning now stmt d).1 = .error error) : Refused error := by
  have foreign {result : Except SessionError SessionTables} (only : ∀ e, result = .error e → Refused e)
      (failed : (written d result).1 = .error error) : Refused error := by
    cases result with
    | ok d' => cases failed
    | error e =>
      cases failed
      exact only _ rfl
  cases stmt with
  | insertSession i createdAt =>
    refine foreign (fun e refused => ?_) failed
    obtain checked | ⟨branch,_,refused⟩ := bind_error refused
    · unfold SessionTables.branchOf at checked
      split at checked <;> cases checked
      exact ⟨_,rfl⟩
    · exact refused_of_insert refused
  | insertMessage i =>
    refine foreign (fun e refused => ?_) failed
    unfold SessionTables.insertMessage at refused
    split at refused
    · cases refused
    · split at refused
      · cases refused
      · cases refused
        exact ⟨_,rfl⟩
  | insertRun i =>
    refine foreign (fun e refused => ?_) failed
    unfold SessionTables.insertRun at refused
    split at refused
    · cases refused
      exact ⟨_,rfl⟩
    · exact refused_of_insert refused
  | insertEvidence r => exact foreign (fun _ => refused_of_insert) failed
  | insertToolCall r => exact foreign (fun _ => refused_of_insert) failed
  | insertToolResult r => exact foreign (fun _ => refused_of_insert) failed
  | updateRun id status finishedAt => cases failed
  | now => cases failed
  | selectSession id => cases failed
  | selectMessage id => cases failed
  | selectRun id => cases failed
  | selectEvidence id => cases failed
  | selectToolExchange id => cases failed

end Writes

end RatifyOs.Storage
