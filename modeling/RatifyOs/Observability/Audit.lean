import Mathlib.Data.List.Flatten
import RatifyOs.Data.Double
import RatifyOs.Data.Merkle
import RatifyOs.Data.Run
import RatifyOs.Data.Utf16

/-! `AuditRootBatcher`: the leaves of audited events in batches, each under one root. -/
namespace RatifyOs.Observability
open Data

structure AuditRoot where
  root : Utf16
  leafCount : ℕ
  createdAt : Double

namespace AuditRootBatcher

section Roots

-- `hash` is the hexadecimal sha256 of a text.
variable (hash : Utf16 → Utf16)

def node (left right : Utf16) : Utf16 := hash (left ++ right)

def auditRoot (level : List Utf16) (now : Double) : AuditRoot where
  root := (Merkle.root (node hash) level).getD []
  leafCount := level.length
  createdAt := now

/-- The texts that the root of a batch is hashed from. -/
def hashed (level : List Utf16) : List Utf16 :=
  (Merkle.joined (node hash) level).map fun p => p.1 ++ p.2

def hexDigit (u : Fin 65536) : Bool := 48 ≤ u.val ∧ u.val ≤ 57 ∨ 97 ≤ u.val ∧ u.val ≤ 102

def Digest (text : Utf16) : Prop := text.length = 64 ∧ text.all hexDigit = true

instance (text : Utf16) : Decidable (Digest text) := inferInstanceAs (Decidable (_ ∧ _))

variable {hash}

theorem auditRoot_inj {first second : List Utf16} {now later : Double} (some_ : first ≠ []) (others : second ≠ [])
    (digests : ∀ leaf ∈ first, Digest leaf) (digests_ : ∀ leaf ∈ second, Digest leaf)
    (outputs : ∀ text, Digest (hash text))
    (injective : Set.InjOn hash {text | text ∈ hashed hash first ∨ text ∈ hashed hash second})
    (root : (auditRoot hash first now).root = (auditRoot hash second later).root)
    (leafCount : (auditRoot hash first now).leafCount = (auditRoot hash second later).leafCount) :
    first = second := by
  apply @Merkle.root_inj _ (node hash) _ _ leafCount
  · intro p inside q inside_ same
    have digest : ∀ p, (p ∈ Merkle.joined (node hash) first ∨ p ∈ Merkle.joined (node hash) second) → Digest p.1 := by
      intro p inside
      rcases inside with inside | inside
      · exact (Merkle.joined_forall (fun a b => outputs (a ++ b)) digests p inside).1
      · exact (Merkle.joined_forall (fun a b => outputs (a ++ b)) digests_ p inside).1
    have texts : p.1 ++ p.2 = q.1 ++ q.2 := by
      apply injective _ _ same
      · exact inside.imp (List.mem_map_of_mem) (List.mem_map_of_mem)
      · exact inside_.imp (List.mem_map_of_mem) (List.mem_map_of_mem)
    have halves := List.append_inj texts ((digest p inside).1.trans (digest q inside_).1.symm)
    exact Prod.ext halves.1 halves.2
  · obtain ⟨r,left⟩ := Option.isSome_iff_exists.mp (@Merkle.root_isSome _ (node hash) _ some_)
    obtain ⟨r',right⟩ := Option.isSome_iff_exists.mp (@Merkle.root_isSome _ (node hash) _ others)
    rw [auditRoot,auditRoot,left,right] at root
    rw [left,right]
    exact congrArg some root

namespace Sample

def a : Utf16 := List.replicate 64 97

def b : Utf16 := List.replicate 64 98

/-- The sha256 of the two as one text. -/
def ab : Utf16 := (Nat.toDigits 16 0xfa0dafbf43f1f551e536353e9d1a942a8e86e41a0b58dfeaf264ef217f6b862a).map fun c => Fin.ofNat 65536 c.toNat

def sha256 (text : Utf16) : Utf16 := if text = a ++ b then ab else a

end Sample

open Sample in
theorem auditRoot_inj_two : [a,b] ≠ [] ∧ Digest ab ∧ [a,b] = [a,b] := by
  have some_ : [a,b] ≠ [] := by simp
  have digests : ∀ leaf ∈ [a,b], Digest leaf := by decide +kernel
  have output : Digest ab := by decide +kernel
  have outputs : ∀ text, Digest (sha256 text) := by
    intro text
    unfold sha256
    split_ifs
    · exact output
    · exact digests a (.head _)
  refine ⟨some_,output,@auditRoot_inj _ _ _ 0 1 some_ some_ digests digests outputs ?_ rfl rfl⟩
  have joined : hashed sha256 [a,b] = [a ++ b] := by
    rw [hashed,Merkle.joined_tall (by decide),Merkle.joined,if_neg (by decide)]
    rfl
  rw [joined]
  intro s inside t inside_ _
  simp only [List.mem_singleton,or_self,Set.mem_ofPred_eq] at inside inside_
  rw [inside,inside_]

end Roots

/-- A call of the sink's `append`, with the leaves under its root. -/
structure Append where
  leaves : List Utf16
  nonempty : leaves ≠ []
  createdAt : Double
  /-- Whether it has succeeded, once it has ended. -/
  outcome : Option Bool

def Append.root (hash : Utf16 → Utf16) (a : Append) : AuditRoot := auditRoot hash a.leaves a.createdAt

/-- The batcher, with the calls of `append` so far and, for the record, the leaves of all the events added. -/
structure State where
  leaves : List Utf16
  appends : List Append
  added : List Utf16

def State.init : State := ⟨[],[],[]⟩

def flush (s : State) (now : Double) : State :=
  if some_ : s.leaves = [] then s
  else { s with leaves := [],appends := s.appends ++ [⟨s.leaves,some_,now,none⟩] }

def push (s : State) (leaf : Utf16) : State := { s with leaves := s.leaves ++ [leaf],added := s.added ++ [leaf] }

section Runs

-- The batch size, and `hash(canonical(clean(event, 4096)))`, which may throw.
variable {ε : Type} (size : Double) (leaf : ε → Option Utf16)

def add (s : State) (event : ε) (now : Double) : State :=
  match leaf event with
  | none => s
  | some l => if .finite (push s l).leaves.length < size then push s l else flush (push s l) now

def Append.settle (a : Append) (ok : Bool) : Append :=
  if a.outcome = none then { a with outcome := some ok } else a

/-- Calls run up to their `await` of the sink, whose answers come in any order. -/
inductive Event (ε : Type) where
  | add (event : ε) (now : Double)
  | flush (now : Double)
  | settles (append : ℕ) (ok : Bool)

def step (s : State) : Event ε → State
  | .add event now => add size leaf s event now
  | .flush now => flush s now
  | .settles i ok => { s with appends := s.appends.modify i (·.settle ok) }

/-- The leaves of the events added are, in their order, in the batches that have been appended or
are being appended, and in the batcher. -/
def Conserved (s : State) : Prop :=
  (s.appends.filter (·.outcome ≠ some false)).flatMap (·.leaves) ++ s.leaves = s.added

instance (s : State) : Decidable (Conserved s) := inferInstanceAs (Decidable (_ = _))

/-- No append that is under way fails. -/
def succeeds (s : State) : Event ε → Prop
  | .settles i ok => ok = true ∨ ∀ a, s.appends[i]? = some a → a.outcome ≠ none
  | _ => True

def Sound (s : State) : Prop := ∀ a ∈ s.appends, a.outcome ≠ some false

/-- Every leaf added is in a batch, failed or not, or in the batcher. -/
def Booked (s : State) : Prop := s.appends.flatMap (·.leaves) ++ s.leaves = s.added

variable {size leaf}

theorem Booked.flush {s : State} (booked : Booked s) (now : Double) : Booked (flush s now) := by
  unfold AuditRootBatcher.flush
  split_ifs with empty
  · exact booked
  · simpa [Booked] using booked

theorem Booked.push {s : State} (booked : Booked s) (l : Utf16) : Booked (push s l) := by
  rw [Booked,AuditRootBatcher.push,← List.append_assoc]
  exact congrArg (· ++ [l]) booked

theorem leaves_settle (a : Append) (ok : Bool) : (a.settle ok).leaves = a.leaves := by
  unfold Append.settle
  split_ifs <;> rfl

theorem leaves_modify (appends : List Append) (i : ℕ) (ok : Bool) :
    (appends.modify i (·.settle ok)).flatMap (·.leaves) = appends.flatMap (·.leaves) := by
  induction appends generalizing i with
  | nil => cases i <;> rfl
  | cons a rest ih =>
    cases i with
    | zero => simp [leaves_settle]
    | succ i => simp [ih]

theorem booked_step (s : State) (event : Event ε) (booked : Booked s) : Booked (step size leaf s event) := by
  cases event with
  | add event now =>
    rw [step,add]
    cases leaf event with
    | none => exact booked
    | some l =>
      dsimp only
      split_ifs
      · exact booked.push l
      · exact (booked.push l).flush now
  | flush now => exact booked.flush now
  | settles i ok =>
    rw [step,Booked,leaves_modify]
    exact booked

theorem sound_flush (s : State) (now : Double) : Sound (flush s now) ↔ Sound s := by
  unfold flush
  split_ifs with empty
  · rfl
  · simp [Sound,or_imp,forall_and]

theorem sound_settles (appends : List Append) (i : ℕ) (ok : Bool) :
    (∀ a ∈ appends.modify i (·.settle ok), a.outcome ≠ some false) ↔
      (∀ a ∈ appends, a.outcome ≠ some false) ∧ (ok = true ∨ ∀ a, appends[i]? = some a → a.outcome ≠ none) := by
  induction appends generalizing i with
  | nil => cases i <;> simp
  | cons a rest ih =>
    cases i with
    | zero =>
      rw [List.modify_zero_cons,List.forall_mem_cons,List.forall_mem_cons]
      unfold Append.settle
      split_ifs with under <;> cases ok <;> simp [under]
    | succ i =>
      rw [List.modify_succ_cons,List.forall_mem_cons,List.forall_mem_cons,ih,List.getElem?_cons_succ,and_assoc]

theorem sound_step (s : State) (event : Event ε) : Sound (step size leaf s event) ↔ Sound s ∧ succeeds s event := by
  cases event with
  | add event now =>
    change Sound (add size leaf s event now) ↔ Sound s ∧ True
    rw [and_true,add]
    cases leaf event with
    | none => rfl
    | some l =>
      dsimp only
      split_ifs
      · rfl
      · exact sound_flush (push s l) now
  | flush now =>
    change Sound (flush s now) ↔ Sound s ∧ True
    rw [and_true,sound_flush]
  | settles i ok => exact sound_settles s.appends i ok

theorem conserved_iff_sound {s : State} (booked : Booked s) : Conserved s ↔ Sound s := by
  rw [Conserved,← booked,List.append_cancel_right_eq]
  unfold Sound
  generalize s.appends = appends
  induction appends with
  | nil => simp
  | cons a rest ih =>
    have fewer : ((rest.filter (·.outcome ≠ some false)).flatMap (·.leaves)).length ≤ (rest.flatMap (·.leaves)).length :=
      (List.filter_sublist.flatMap _).length_le
    rw [List.forall_mem_cons,List.flatMap_cons]
    by_cases failed : a.outcome = some false
    · rw [List.filter_cons_of_neg (by simpa using failed)]
      constructor
      · intro same
        have lost := List.length_pos_of_ne_nil a.nonempty
        rw [same,List.length_append] at fewer
        omega
      · intro sound
        exact absurd failed sound.1
    · rw [List.filter_cons_of_pos (by simpa using failed),List.flatMap_cons,List.append_cancel_left_eq,ih]
      exact (and_iff_right failed).symm

theorem conserved_iff (events : List (Event ε)) :
    Conserved (Run.run (step size leaf) .init events) ↔ Run.Meets (step size leaf) succeeds .init events := by
  have booked : Booked (Run.run (step size leaf) .init events) := by
    have start : Booked .init := rfl
    apply Run.invariant (fun s event (_ : True) => booked_step s event) start
    exact Run.Meets.of_forall (fun _ _ => trivial) _
  rw [conserved_iff_sound booked,Run.lasting_iff sound_step]
  apply and_iff_right
  intro a inside
  cases inside

/-- The leaf of an event whose batch could not be appended is gone. -/
theorem conserved_lost :
    ¬Conserved (Run.run (step 100 fun _ : Unit => some Sample.a) .init [.add () 0,.flush 0,.settles 0 false]) := by
  decide +kernel

end Runs

end AuditRootBatcher
end RatifyOs.Observability
