import RatifyOs.Data.Regex

/-! What a regular expression without repetitions and boundaries reads, as a language. -/
namespace RatifyOs.Data.Regex

inductive Spells : Regex → List Char → Prop where
  | empty : Spells .empty []
  | one {accepts c} (accepted : accepts c = true) : Spells (.one accepts) [c]
  | seq {first second u v} (before : Spells first u) (after : Spells second v) : Spells (.seq first second) (u ++ v)
  | left {first second w} (spelled : Spells first w) : Spells (.either first second) w
  | right {first second w} (spelled : Spells second w) : Spells (.either first second) w

/-- Neither a repetition nor a boundary. -/
def Plain : Regex → Prop
  | .empty => True
  | .one _ => True
  | .seq first second => Plain first ∧ Plain second
  | .either first second => Plain first ∧ Plain second
  | .atLeast _ _ => False
  | .boundary => False

theorem plain_literal (text : String) : Plain (literal text) := by
  unfold literal
  induction text.toList with
  | nil => trivial
  | cons c rest ih => exact ⟨trivial,ih⟩

/-- A match ends before what is left when its word is read off. -/
theorem mem_ends_iff {r : Regex} (plain : Plain r) (b : Option Char) (text rest : Text) :
    (∃ b', (b',rest) ∈ ends r (b,text)) ↔ ∃ w, Spells r w ∧ text = w ++ rest := by
  induction r generalizing b text rest with
  | empty =>
    constructor
    · rintro ⟨b',inside⟩
      cases List.mem_singleton.mp inside
      exact ⟨[],.empty,rfl⟩
    · rintro ⟨w,spelled,rfl⟩
      cases spelled
      exact ⟨b,List.mem_singleton.mpr rfl⟩
  | one accepts =>
    constructor
    · rintro ⟨b',inside⟩
      cases text with
      | nil => cases inside
      | cons c tail =>
        simp only [ends] at inside
        split at inside
        · rename_i accepted
          cases List.mem_singleton.mp inside
          exact ⟨[c],.one accepted,rfl⟩
        · cases inside
    · rintro ⟨w,spelled,rfl⟩
      cases spelled with
      | one accepted => exact ⟨_,by simp only [List.cons_append,List.nil_append,ends,accepted,if_true]; exact .head _⟩
  | seq first second ih ih' =>
    constructor
    · rintro ⟨b',inside⟩
      obtain ⟨⟨c,middle⟩,there,last⟩ := List.mem_flatMap.mp inside
      obtain ⟨u,before,rfl⟩ := (ih plain.1 b text middle).mp ⟨c,there⟩
      obtain ⟨v,after,rfl⟩ := (ih' plain.2 c middle rest).mp ⟨b',last⟩
      exact ⟨u ++ v,.seq before after,(List.append_assoc _ _ _).symm⟩
    · rintro ⟨w,spelled,rfl⟩
      cases spelled with
      | seq before after =>
        rename_i u v
        obtain ⟨c,there⟩ := (ih plain.1 b (u ++ v ++ rest) (v ++ rest)).mpr ⟨u,before,List.append_assoc _ _ _⟩
        obtain ⟨b',last⟩ := (ih' plain.2 c (v ++ rest) rest).mpr ⟨v,after,rfl⟩
        exact ⟨b',List.mem_flatMap.mpr ⟨_,there,last⟩⟩
  | either first second ih ih' =>
    constructor
    · rintro ⟨b',inside⟩
      rcases List.mem_append.mp inside with there | there
      · obtain ⟨w,spelled,same⟩ := (ih plain.1 b text rest).mp ⟨b',there⟩
        exact ⟨w,.left spelled,same⟩
      · obtain ⟨w,spelled,same⟩ := (ih' plain.2 b text rest).mp ⟨b',there⟩
        exact ⟨w,.right spelled,same⟩
    · rintro ⟨w,spelled,same⟩
      cases spelled with
      | left spelled =>
        obtain ⟨b',there⟩ := (ih plain.1 b text rest).mpr ⟨w,spelled,same⟩
        exact ⟨b',List.mem_append_left _ there⟩
      | right spelled =>
        obtain ⟨b',there⟩ := (ih' plain.2 b text rest).mpr ⟨w,spelled,same⟩
        exact ⟨b',List.mem_append_right _ there⟩
  | atLeast count repeated => exact plain.elim
  | boundary => exact plain.elim

@[simp] theorem spells_empty {w : List Char} : Spells .empty w ↔ w = [] := by
  constructor
  · intro spelled
    cases spelled
    rfl
  · rintro rfl
    exact .empty

@[simp] theorem spells_one {accepts : Char → Bool} {w : List Char} :
    Spells (.one accepts) w ↔ ∃ c, accepts c = true ∧ w = [c] := by
  constructor
  · intro spelled
    cases spelled with
    | one accepted => exact ⟨_,accepted,rfl⟩
  · rintro ⟨c,accepted,rfl⟩
    exact .one accepted

@[simp] theorem spells_seq {first second : Regex} {w : List Char} :
    Spells (.seq first second) w ↔ ∃ u v, Spells first u ∧ Spells second v ∧ w = u ++ v := by
  constructor
  · intro spelled
    cases spelled with
    | seq before after => exact ⟨_,_,before,after,rfl⟩
  · rintro ⟨u,v,before,after,rfl⟩
    exact .seq before after

@[simp] theorem spells_either {first second : Regex} {w : List Char} :
    Spells (.either first second) w ↔ Spells first w ∨ Spells second w := by
  constructor
  · intro spelled
    cases spelled with
    | left spelled => exact .inl spelled
    | right spelled => exact .inr spelled
  · rintro (spelled | spelled)
    · exact .left spelled
    · exact .right spelled

@[simp] theorem spells_literal {text : String} {w : List Char} :
    Spells (literal text) w ↔ w.map fold = text.toList.map fold := by
  unfold literal
  induction text.toList generalizing w with
  | nil => simp
  | cons c rest ih =>
    simp only [List.foldr_cons,spells_seq,spells_one,decide_eq_true_eq,ih,List.map_cons]
    constructor
    · rintro ⟨u,v,⟨d,same,rfl⟩,tail,rfl⟩
      simp [same,tail]
    · intro same
      cases w with
      | nil => cases same
      | cons d v =>
        obtain ⟨first,tail⟩ := List.cons.inj same
        exact ⟨[d],v,⟨d,first,rfl⟩,tail,rfl⟩

/-- The places of a text are its beginnings with what follows. -/
theorem mem_places {b before : Option Char} {text rest : Text} :
    (b,rest) ∈ places before text ↔ ∃ start, text = start ++ rest ∧ b = (start.getLast?).or before := by
  induction text generalizing before with
  | nil =>
    simp only [places,List.mem_singleton,Prod.mk.injEq,List.nil_eq_append_iff]
    constructor
    · rintro ⟨rfl,rfl⟩
      exact ⟨[],⟨rfl,rfl⟩,rfl⟩
    · rintro ⟨start,⟨rfl,rfl⟩,same⟩
      exact ⟨same,rfl⟩
  | cons c tail ih =>
    rw [places,List.mem_cons,ih]
    constructor
    · rintro (same | ⟨start,rfl,same⟩)
      · cases same
        exact ⟨[],rfl,rfl⟩
      · refine ⟨c :: start,rfl,?_⟩
        rw [same]
        cases start with
        | nil => rfl
        | cons d start => simp [List.getLast?_cons]
    · rintro ⟨start,same,last⟩
      cases start with
      | nil =>
        left
        cases same
        exact Prod.ext last rfl
      | cons d start =>
        obtain ⟨rfl,rfl⟩ := List.cons.inj same
        refine .inr ⟨start,rfl,?_⟩
        rw [last]
        cases start with
        | nil => rfl
        | cons d start => simp [List.getLast?_cons]

end RatifyOs.Data.Regex
