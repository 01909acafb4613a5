import RatifyOs.Data.Buffer
import RatifyOs.Data.Lines
import RatifyOs.Data.Result

/-! Newline-delimited framing on the signer's socket: what a decoder delivers of a stream,
and what it depends on how the stream is cut into chunks. -/
namespace RatifyOs.Signer.JsonFrameDecoder
open Data Data.Result

inductive FrameError where
  | frame_too_large
  | frame_json_invalid
  deriving DecidableEq

section Decoder
variable {α : Type} (max : ℕ) (read : Bytes → Option α)

/-- The loop of `push`, at most this many times around. `read` is
`JSON.parse(line.toString("utf8"))`, or nothing where it throws. -/
def frames : ℕ → Bytes → Except FrameError (List α × Bytes)
  | 0, pending => .ok ([],pending)
  | n + 1, pending =>
    match pending.idxOf? 10 with
    | none => .ok ([],pending)
    | some i => do
      reject (i > max) FrameError.frame_too_large
      let line := pending.take i
      let pending := pending.drop (i + 1)
      if line = [] then frames n pending
      else do
        let value ← required (read line) FrameError.frame_json_invalid
        let (out,pending) ← frames n pending
        return (value :: out,pending)

/-- The loop takes a byte from the buffer each time around. -/
def push (pending chunk : Bytes) : Except FrameError (List α × Bytes) := do
  let pending := pending ++ chunk
  reject (pending.length > max ∧ 10 ∉ pending) FrameError.frame_too_large
  frames max read pending.length pending

/-- What a stream has delivered up to its first error. -/
@[ext]
structure Outcome (α : Type) where
  delivered : List α
  error : Option FrameError
  deriving DecidableEq

/-- The pushes of a stream up to the first that throws. -/
def run (pending : Bytes) : List Bytes → Outcome α
  | [] => ⟨[],none⟩
  | chunk :: chunks =>
    match push max read pending chunk with
    | .ok (out,pending) => ⟨out ++ (run pending chunks).delivered,(run pending chunks).error⟩
    | .error error => ⟨[],some error⟩

/-- Every push that returns leaves a buffer without a newline that is not too large. -/
def Retains (pending : Bytes) : List Bytes → Prop
  | [] => True
  | chunk :: chunks =>
    match push max read pending chunk with
    | .ok (_,pending) => (10 ∉ pending ∧ pending.length ≤ max) ∧ Retains pending chunks
    | .error _ => True

end Decoder

section Stream
variable {α : Type} (max : ℕ) (read : Bytes → Option α)

/-- The value of a line, nothing for an empty one. -/
def lineOf (line : Bytes) : Except FrameError (List α) := do
  reject (line.length > max) FrameError.frame_too_large
  if line = [] then return [] else return [← required (read line) FrameError.frame_json_invalid]

/-- The values of the lines in order, and after them the line that is not yet ended. -/
def linesOf (rest : Bytes) : List Bytes → Outcome α
  | [] => ⟨[],if rest.length > max then some .frame_too_large else none⟩
  | line :: lines =>
    match lineOf max read line with
    | .ok values => ⟨values ++ (linesOf rest lines).delivered,(linesOf rest lines).error⟩
    | .error error => ⟨[],some error⟩

/-- The frames of a stream, whatever the chunks it comes in. -/
def stream (bytes : Bytes) : Outcome α := linesOf max read (Lines.cut 10 bytes).2 (Lines.cut 10 bytes).1

/-- The values of the lines before the first that fails, and its error. -/
def through (lines : List Bytes) : Outcome α := linesOf max read [] lines

/-- In no push does a line that fails come after a frame of the same push, and no push that
ends a line brings too much of the next one. -/
def Tame (pending : Bytes) : List Bytes → Prop
  | [] => True
  | chunk :: chunks =>
    let (lines,rest) := Lines.cut 10 (pending ++ chunk)
    let seen : Outcome α := through max read lines
    if seen.error.isSome then seen.delivered = []
    else (lines ≠ [] → rest.length ≤ max) ∧ (rest.length ≤ max → Tame rest chunks)

end Stream

section Push
variable {α : Type} {max : ℕ} {read : Bytes → Option α}

theorem through_nil : through max read [] = ⟨[],none⟩ := rfl

theorem linesOf_cons (rest line : Bytes) (lines : List Bytes) : linesOf max read rest (line :: lines) =
    match lineOf max read line with
    | .ok values => ⟨values ++ (linesOf max read rest lines).delivered,(linesOf max read rest lines).error⟩
    | .error error => ⟨[],some error⟩ := rfl

theorem lineOf_large {line : Bytes} (large : line.length > max) :
    lineOf max read line = .error .frame_too_large := by
  simp only [lineOf,reject,if_pos large]
  rfl

theorem lineOf_empty : lineOf max read [] = .ok [] := rfl

theorem lineOf_read {line : Bytes} (fits : ¬line.length > max) (some_ : line ≠ []) : lineOf max read line =
    match read line with
    | some value => .ok [value]
    | none => .error .frame_json_invalid := by
  simp only [lineOf,reject,if_neg fits,if_neg some_]
  cases read line <;> rfl

theorem frames_eq {n : ℕ} {pending : Bytes} (enough : (Lines.cut 10 pending).1.length ≤ n) :
    frames max read n pending = match through max read (Lines.cut 10 pending).1 with
      | ⟨values,none⟩ => .ok (values,(Lines.cut 10 pending).2)
      | ⟨_,some error⟩ => .error error := by
  induction n generalizing pending with
  | zero =>
    have none_ : 10 ∉ pending := (Lines.pieces_eq_nil_iff 10 pending).mp (List.length_eq_zero_iff.mp (Nat.le_zero.mp enough))
    rw [Lines.cut_free 10 none_]
    rfl
  | succ n ih =>
    rw [frames]
    cases first : pending.idxOf? 10 with
    | none =>
      have none_ : 10 ∉ pending := List.idxOf?_eq_none_iff.mp first
      rw [Lines.cut_free 10 none_]
      rfl
    | some i =>
      obtain ⟨split,free,length⟩ := Lines.split_first 10 first
      have cut := Lines.cut_piece 10 free (pending.drop (i + 1))
      rw [← split] at cut
      rw [cut] at enough ⊢
      have rest := @ih (pending.drop (i + 1)) (Nat.le_of_succ_le_succ enough)
      dsimp only
      rw [through,linesOf_cons,← through]
      by_cases large : i > max
      · rw [lineOf_large (length.symm ▸ large)]
        simp only [reject,if_pos large]
        rfl
      · simp only [reject,if_neg large]
        by_cases empty : pending.take i = []
        · rw [empty,lineOf_empty]
          change frames max read n (pending.drop (i + 1)) = _
          rw [rest]
          rfl
        · rw [lineOf_read (length.symm ▸ large) empty]
          simp only [if_neg empty]
          cases read (pending.take i) with
          | none => rfl
          | some value =>
            change (do
              let (out,pending) ← frames max read n (pending.drop (i + 1))
              return (value :: out,pending)) = _
            rw [rest]
            obtain ⟨values,_ | error⟩ := through max read (Lines.cut 10 (pending.drop (i + 1))).1 <;> rfl

theorem push_eq (pending chunk : Bytes) : push max read pending chunk =
    if (Lines.cut 10 (pending ++ chunk)).1 = [] ∧ (Lines.cut 10 (pending ++ chunk)).2.length > max then
      .error .frame_too_large
    else match through max read (Lines.cut 10 (pending ++ chunk)).1 with
      | ⟨values,none⟩ => .ok (values,(Lines.cut 10 (pending ++ chunk)).2)
      | ⟨_,some error⟩ => .error error := by
  rw [push]
  generalize pending ++ chunk = bytes
  have same : (bytes.length > max ∧ 10 ∉ bytes) ↔
      (Lines.cut 10 bytes).1 = [] ∧ (Lines.cut 10 bytes).2.length > max := by
    rw [Lines.pieces_eq_nil_iff,and_comm]
    refine and_congr_right fun free => ?_
    rw [Lines.cut_free 10 free]
  by_cases large : bytes.length > max ∧ 10 ∉ bytes
  · rw [if_pos (same.mp large)]
    simp only [reject,if_pos large]
    rfl
  · rw [if_neg (mt same.mpr large),← frames_eq (Lines.pieces_le 10 bytes)]
    simp only [reject,if_neg large]
    rfl

end Push

section Chunks
variable {α : Type} {max : ℕ} {read : Bytes → Option α}

theorem linesOf_append (rest : Bytes) (lines more : List Bytes) : linesOf max read rest (lines ++ more) =
    match through max read lines with
    | ⟨values,none⟩ => ⟨values ++ (linesOf max read rest more).delivered,(linesOf max read rest more).error⟩
    | ⟨values,some error⟩ => ⟨values,some error⟩ := by
  induction lines with
  | nil => rfl
  | cons line lines ih =>
    rw [List.cons_append,linesOf_cons,through,linesOf_cons,← through,ih]
    cases lineOf max read line with
    | error error => rfl
    | ok value =>
      obtain ⟨values,_ | error⟩ := through max read lines
      · simp
      · rfl

/-- What a prefix of the stream delivers, and what follows from the line it has not ended. -/
theorem stream_append (bytes more : Bytes) : stream max read (bytes ++ more) =
    match through max read (Lines.cut 10 bytes).1 with
    | ⟨values,none⟩ => ⟨values ++ (stream max read ((Lines.cut 10 bytes).2 ++ more)).delivered,
        (stream max read ((Lines.cut 10 bytes).2 ++ more)).error⟩
    | ⟨values,some error⟩ => ⟨values,some error⟩ := by
  rw [stream,Lines.cut_append,linesOf_append]
  rfl

theorem stream_large {bytes : Bytes} (free : 10 ∉ bytes) (large : bytes.length > max) (more : Bytes) :
    stream max read (bytes ++ more) = ⟨[],some .frame_too_large⟩ := by
  rw [stream]
  obtain ⟨after,lines,first⟩ | ⟨none_,after,rest⟩ := Lines.cut_begins 10 free more
  · have longer : (bytes ++ after).length > max := by
      rw [List.length_append]
      omega
    rw [first,linesOf_cons,lineOf_large longer]
  · have longer : (bytes ++ after).length > max := by
      rw [List.length_append]
      omega
    rw [none_,rest,linesOf,if_pos longer]

theorem chunks_iff (chunks : List Bytes) {pending : Bytes} (free : 10 ∉ pending) (fits : pending.length ≤ max) :
    (run max read pending chunks = stream max read (pending ++ chunks.flatten) ∧ Retains max read pending chunks) ↔
      Tame max read pending chunks := by
  induction chunks generalizing pending with
  | nil =>
    have small : ¬pending.length > max := by omega
    rw [List.flatten_nil,List.append_nil,stream,Lines.cut_free 10 free]
    simp [run,Retains,Tame,linesOf,small]
  | cons chunk chunks ih =>
    have rest_free := Lines.rest_free 10 (pending ++ chunk)
    rw [List.flatten_cons,← List.append_assoc,stream_append,run,Retains,push_eq,Tame]
    generalize Lines.cut 10 (pending ++ chunk) = cut at *
    obtain ⟨lines,rest⟩ := cut
    dsimp only at *
    by_cases stops : lines = [] ∧ rest.length > max
    · obtain ⟨rfl,large⟩ := stops
      rw [through_nil,stream_large rest_free large]
      simp [large]
    · rw [if_neg stops]
      obtain ⟨values,_ | error⟩ := through max read lines
      · by_cases fits' : rest.length ≤ max
        · have rests := ih rest_free fits'
          simp [fits',rest_free,← rests,Outcome.ext_iff]
        · have some_ : lines ≠ [] := fun none_ => stops ⟨none_,not_le.mp fits'⟩
          simp [fits',some_]
      · simp [Outcome.ext_iff,eq_comm]

end Chunks

theorem frames_chunked_iff {α : Type} (max : ℕ) (read : Bytes → Option α) (chunks : List Bytes) :
    (run max read [] chunks = stream max read chunks.flatten ∧ Retains max read [] chunks) ↔ Tame max read [] chunks :=
  chunks_iff chunks (List.not_mem_nil) (Nat.zero_le max)

namespace Sample

/-- Lines that are digits, as `JSON.parse` reads them. -/
def digits (line : Bytes) : Option ℕ :=
  if line.all (fun b => 49 ≤ b ∧ b ≤ 57) = true then some (line.foldl (fun n b => n * 10 + (b.toNat - 48)) 0) else none

end Sample

open Sample in
/-- The frame is delivered when its line comes alone and lost when the bad line comes with it. -/
theorem frames_lost : run 8 digits [] [[49,10],[33,10]] = ⟨[1],some .frame_json_invalid⟩ ∧
    run 8 digits [] [[49,10,33,10]] = ⟨[],some .frame_json_invalid⟩ ∧
    ¬Retains 2 digits [] [[10,49,49,49]] := by
  refine ⟨by decide,by decide,fun retains => ?_⟩
  have small := retains.1.2
  exact absurd small (by decide)

end RatifyOs.Signer.JsonFrameDecoder
