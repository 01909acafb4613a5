import Mathlib.Order.Lattice
import RatifyOs.Async.System

/-! A chain that only grows, on which a transaction can land up to a height of its own. -/
namespace RatifyOs.Cluster

variable {τ η : Type} [LinearOrder η] {limit : τ → η}

structure Chain (limit : τ → η) where
  height : η
  landed : List (τ × η)
  within : ∀ entry ∈ landed, entry.2 ≤ height ∧ entry.2 ≤ limit entry.1

namespace Chain

def Landed (c : Chain limit) (t : τ) : Prop := ∃ height, (t,height) ∈ c.landed

/-- The later chain keeps what has landed; what is new on it is not below the height. -/
instance : LE (Chain limit) where
  le c later := c.height ≤ later.height ∧ c.landed ⊆ later.landed ∧
    ∀ entry ∈ later.landed, entry ∈ c.landed ∨ c.height ≤ entry.2

instance : Preorder (Chain limit) where
  le_refl c := ⟨le_refl c.height,List.Subset.refl c.landed,fun _ inside => .inl inside⟩
  le_trans c d e first second := by
    refine ⟨first.1.trans second.1,List.Subset.trans first.2.1 second.2.1,?_⟩
    intro entry inside
    rcases second.2.2 entry inside with before | above
    · exact first.2.2 entry before
    · exact .inr (first.1.trans above)

/-- It has not landed, and on no later chain it will have. -/
def Dead (c : Chain limit) (t : τ) : Prop := ∀ later, c ≤ later → ¬later.Landed t

def genesis (height : η) : Chain limit := ⟨height,[],fun _ inside => nomatch inside⟩

def grow (c : Chain limit) (height : η) : Chain limit where
  height := max c.height height
  landed := c.landed
  within entry inside := ⟨(c.within entry inside).1.trans (le_max_left _ _),(c.within entry inside).2⟩

/-- A transaction past its height is not taken. -/
def land (c : Chain limit) (t : τ) : Chain limit :=
  if alive : c.height ≤ limit t then
    { height := c.height
      landed := (t,c.height) :: c.landed
      within := by
        intro entry inside
        rcases List.mem_cons.mp inside with rfl | before
        · exact ⟨le_refl _,alive⟩
        · exact c.within entry before }
  else c

theorem le_grow (c : Chain limit) (height : η) : c ≤ c.grow height :=
  ⟨le_max_left _ _,List.Subset.refl _,fun _ inside => .inl inside⟩

theorem le_land (c : Chain limit) (t : τ) : c ≤ c.land t := by
  unfold land
  split
  · refine ⟨le_refl _,List.subset_cons_self _ _,?_⟩
    intro entry inside
    rcases List.mem_cons.mp inside with rfl | before
    · exact .inr (le_refl _)
    · exact .inl before
  · exact le_refl c

theorem Dead.mono {c later : Chain limit} {t : τ} (dead : c.Dead t) (grown : c ≤ later) : later.Dead t :=
  fun last above => dead last (grown.trans above)

theorem dead_of_past {c : Chain limit} {t : τ} (unlanded : ¬c.Landed t) (past : limit t < c.height) : c.Dead t := by
  intro later grown landed
  obtain ⟨height,inside⟩ := landed
  rcases grown.2.2 (t,height) inside with before | above
  · exact unlanded ⟨height,before⟩
  · have kept := (later.within (t,height) inside).2
    exact absurd (past.trans_le above) (not_lt_of_ge kept)

end Chain

/-- A transaction as the cluster knows it. -/
structure Sent (η : Type) where
  signature : String
  lastValidBlockHeight : η
  deriving DecidableEq

/-- Whether anything with this signature has landed. -/
def Chain.seen (c : Chain (Sent.lastValidBlockHeight : Sent η → η)) (signature : String) : Bool :=
  c.landed.any fun entry => entry.1.signature = signature

/-! Calls that ask a growing chain first for a signature and then for its height. -/
open Async

variable {Op : Type} {Ans : Op → Type} {ε σ κ χ η : Type} [LinearOrder η]

/-- How the effects of a system show its chain: which effect reads the height, and what an
answered one has said about a signature or the height. -/
structure Watch (Ans : Op → Type) (ε σ η : Type) [LinearOrder η] where
  chain : σ → Chain (Sent.lastValidBlockHeight : Sent η → η)
  reads : Op → Bool
  unknown : Entry Op Ans ε → Option String
  height : Entry Op Ans ε → Option η

namespace Watch
variable (w : Watch Ans ε σ η)

/-- A height is read right after a signature was unknown only while nothing of that
signature has landed that the height is past. -/
def Timely (p : Config Op Ans ε σ) : Event κ χ → Prop
  | .perform i _ =>
    match p.threads i with
    | some ⟨.perform op _,asked :: _⟩ => w.reads op = true → ∀ signature ∈ w.unknown asked,
      ∀ entry ∈ (w.chain p.state).landed, entry.1.signature = signature →
        (w.chain p.state).height ≤ entry.1.lastValidBlockHeight
    | _ => True
  | _ => True

instance (p : Config Op Ans ε σ) (event : Event κ χ) : Decidable (w.Timely p event) := by
  cases event with
  | perform i choice =>
    unfold Timely
    dsimp only
    split <;> infer_instance
  | _ => exact isTrue trivial

/-- What the two reads have told a call: a transaction of that signature and of an earlier
height is dead. -/
def Told (s : σ) (h : History Op Ans ε) : Prop :=
  ∀ newer read asked older height signature limit, h = newer ++ read :: asked :: older →
    w.height read = some height → w.unknown asked = some signature → limit < height →
      (w.chain s).Dead ⟨signature,limit⟩

variable {w}

theorem learned_initial (state : σ) : System.Learned w.Told (Config.initial state : Config Op Ans ε σ) := by
  intro i t found
  simp [Config.initial] at found

theorem told_step {s : System Op Ans ε σ κ χ} {p : Config Op Ans ε σ} {event : Event κ χ}
    (grows : w.chain p.state ≤ w.chain (s.step p event).state)
    (faithful : ∀ choice op state height, w.height ⟨op,(s.handle choice op state).1⟩ = some height →
      w.reads op = true ∧ height = (w.chain state).height)
    (told : System.Learned w.Told p) (timely : w.Timely p event) : System.Learned w.Told (s.step p event) := by
  apply s.learned_step told
  · intro state newer read asked older height signature limit split
    simp at split
  · intro history learned newer read asked older height signature limit split seen unknown past
    exact (learned newer read asked older height signature limit split seen unknown past).mono grows
  · intro i choice op next history performed here learned newer read asked older height signature limit split seen
      unknown past
    cases newer with
    | cons entry newer =>
      rw [List.cons_append,List.cons.injEq] at split
      exact learned newer read asked older height signature limit split.2 seen unknown past
    | nil =>
      rw [List.nil_append,List.cons.injEq] at split
      obtain ⟨rfl,rfl⟩ := split
      subst performed
      obtain ⟨reads,now⟩ := faithful choice op p.state height seen
      have before : w.reads op = true → ∀ signature ∈ w.unknown asked, ∀ entry ∈ (w.chain p.state).landed,
          entry.1.signature = signature → (w.chain p.state).height ≤ entry.1.lastValidBlockHeight := by
        simpa only [Timely,here] using timely
      have unlanded : ¬(w.chain p.state).Landed ⟨signature,limit⟩ := by
        intro landed
        obtain ⟨at_,inside⟩ := landed
        have alive := before reads signature unknown (⟨signature,limit⟩,at_) inside rfl
        rw [now] at past
        exact absurd past (not_lt_of_ge alive)
      have dead := Chain.dead_of_past unlanded (now ▸ past)
      exact dead.mono grows

end Watch

end RatifyOs.Cluster
