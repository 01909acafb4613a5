import RatifyOs.Cognition.Context

/-! Contexts whose tool calls are all answered at once and in order, and that `buildUnits`
cuts such a context into contexts of this kind and refuses every other. -/
namespace RatifyOs.Cognition
open Data Data.Result

/-- The results of these calls, in their order. -/
def Answers : List String → List ContextMessage → Prop :=
  List.Forall₂ fun id m => m.role = .tool ∧ m.toolCallId = some id

inductive WellFormed : List ContextMessage → Prop
  | nil : WellFormed []
  | plain {m : ContextMessage} {rest : List ContextMessage} :
    m.role ≠ .tool → ¬m.Calls → WellFormed rest → WellFormed (m :: rest)
  | exchange {m : ContextMessage} {found rest : List ContextMessage} :
    m.Calls → "" ∉ m.callIds → m.callIds.Nodup → Answers m.callIds found → WellFormed rest →
    WellFormed (m :: (found ++ rest))

theorem ContextMessage.Calls.not_tool {m : ContextMessage} (calls : m.Calls) : m.role ≠ .tool := by
  rw [calls.1]
  decide

section Grammar
variable {a b : List ContextMessage} {m : ContextMessage}

theorem startsWithTool_append (nonempty : a ≠ []) : startsWithTool (a ++ b) = startsWithTool a := by
  cases a with
  | nil => contradiction
  | cons m a => rfl

theorem WellFormed.starts (whole : WellFormed a) : startsWithTool a = false := by
  induction whole with
  | nil => rfl
  | plain role => exact decide_eq_false role
  | exchange calls => exact decide_eq_false calls.not_tool

theorem Answers.nonempty_starts {ids : List String} (answers : Answers ids a) (nonempty : a ≠ []) :
    startsWithTool a = true := by
  cases answers with
  | nil => contradiction
  | cons first => exact decide_eq_true first.1

theorem WellFormed.append (first : WellFormed a) (second : WellFormed b) : WellFormed (a ++ b) := by
  induction first with
  | nil => exact second
  | plain role calls _ ih => exact .plain role calls ih
  | @exchange m found rest calls ids nodup answers _ ih =>
    rw [List.cons_append,List.append_assoc]
    exact .exchange calls ids nodup answers ih

/-- A context may be cut wherever no result would come first. -/
theorem WellFormed.split (whole : WellFormed (a ++ b)) (border : startsWithTool b = false) :
    WellFormed a ∧ WellFormed b := by
  generalize same : a ++ b = l at whole
  induction whole generalizing a with
  | nil =>
    obtain ⟨rfl,rfl⟩ := List.append_eq_nil_iff.mp same
    exact ⟨.nil,.nil⟩
  | plain role calls rest ih =>
    cases a with
    | nil =>
      subst same
      exact ⟨.nil,.plain role calls rest⟩
    | cons m' a =>
      obtain ⟨rfl,tail⟩ := List.cons.inj same
      obtain ⟨left,right⟩ := ih tail
      exact ⟨.plain role calls left,right⟩
  | @exchange m found rest calls ids nodup answers whole ih =>
    cases a with
    | nil =>
      subst same
      exact ⟨.nil,.exchange calls ids nodup answers whole⟩
    | cons m' a =>
      obtain ⟨rfl,tail⟩ := List.cons.inj same
      rcases List.append_eq_append_iff.mp tail with ⟨c,answered,later⟩ | ⟨c,inside,later⟩
      · -- A border among the results would put a result first.
        have none : c = [] := by
          by_contra nonempty
          rw [answered] at answers
          have last : Answers _ c := List.forall₂_drop_append _ _ _ answers
          rw [later,startsWithTool_append nonempty,last.nonempty_starts nonempty] at border
          contradiction
        subst none
        rw [List.append_nil] at answered
        rw [List.nil_append] at later
        subst answered later
        have alone := WellFormed.exchange calls ids nodup answers .nil
        rw [List.append_nil] at alone
        exact ⟨alone,whole⟩
      · subst inside
        obtain ⟨left,right⟩ := ih later.symm
        exact ⟨.exchange calls ids nodup answers left,right⟩

theorem WellFormed.tail (whole : WellFormed (m :: a)) (plain : ¬m.Calls) : WellFormed a := by
  generalize same : m :: a = l at whole
  cases whole with
  | nil => contradiction
  | plain _ _ rest =>
    obtain ⟨rfl,rfl⟩ := List.cons.inj same
    exact rest
  | exchange calls =>
    obtain ⟨rfl,-⟩ := List.cons.inj same
    contradiction

/-- Between two messages there is room for a plain one unless the second is a result. -/
theorem wellFormed_insert (whole : WellFormed (a ++ b)) (role : m.role ≠ .tool) (plain : ¬m.Calls) :
    WellFormed (a ++ m :: b) ↔ startsWithTool b = false := by
  constructor
  · intro inserted
    exact ((inserted.split (decide_eq_false role)).2.tail plain).starts
  · intro border
    obtain ⟨left,right⟩ := whole.split border
    exact left.append (.plain role plain right)

end Grammar

section Units

theorem takeResults_eq_ok {ids : List String} {rest found left : List Placed} :
    takeResults ids rest = .ok (found,left) ↔ rest = found ++ left ∧ Answers ids (found.map Prod.fst) := by
  induction ids generalizing rest found left with
  | nil =>
    simp only [takeResults,Except.ok.injEq,Prod.mk.injEq,Answers,List.forall₂_nil_left_iff,List.map_eq_nil_iff]
    constructor
    · rintro ⟨rfl,rfl⟩
      exact ⟨rfl,rfl⟩
    · rintro ⟨rfl,rfl⟩
      exact ⟨rfl,rfl⟩
  | cons id ids ih =>
    cases rest with
    | nil =>
      simp only [takeResults,reduceCtorEq,false_iff,not_and]
      intro none answers
      obtain ⟨rfl,-⟩ := List.append_eq_nil_iff.mp none.symm
      cases answers
    | cons result rest =>
      rw [takeResults]
      split_ifs with wrong
      · simp only [false_iff,not_and]
        intro same answers
        cases found with
        | nil => cases answers
        | cons first found =>
          obtain ⟨rfl,-⟩ := List.cons.inj same
          obtain ⟨⟨role,call⟩,-⟩ := List.forall₂_cons.mp answers
          rcases wrong with wrong | wrong
          · exact wrong role
          · exact wrong call
      · simp only [not_or,not_not] at wrong
        simp only [bind_eq_ok,pure_eq_ok,Prod.mk.injEq,Prod.exists]
        constructor
        · rintro ⟨found',left',taken,rfl,rfl⟩
          obtain ⟨rfl,answers⟩ := ih.mp taken
          exact ⟨rfl,.cons wrong answers⟩
        · rintro ⟨same,answers⟩
          cases found with
          | nil => cases answers
          | cons first found =>
            obtain ⟨rfl,tail⟩ := List.cons.inj same
            exact ⟨found,left,ih.mpr ⟨tail,(List.forall₂_cons.mp answers).2⟩,rfl,rfl⟩

/-- The units are the messages in order, and each is a context of its own. -/
theorem unitsFrom_sound {fuel : ℕ} {l : List Placed} {units : List (List Placed)} (enough : l.length ≤ fuel)
    (ok : unitsFrom fuel l = .ok units) :
    units.flatten = l ∧ ∀ unit ∈ units, unit ≠ [] ∧ WellFormed (unit.map Prod.fst) := by
  induction fuel generalizing l units with
  | zero =>
    obtain rfl := List.eq_nil_of_length_eq_zero (Nat.le_zero.mp enough)
    cases ok
    simp
  | succ fuel ih =>
    cases l with
    | nil =>
      cases ok
      simp
    | cons current rest =>
      have shorter : rest.length ≤ fuel := Nat.le_of_succ_le_succ enough
      rw [unitsFrom.eq_def] at ok
      dsimp only at ok
      split_ifs at ok with role calls
      · obtain ⟨_,ids,ok⟩ := bind_eq_ok.mp ok
        obtain ⟨⟨found,left⟩,taken,ok⟩ := bind_eq_ok.mp ok
        obtain ⟨_,-,ok⟩ := bind_eq_ok.mp ok
        obtain ⟨units',later,ok⟩ := bind_eq_ok.mp ok
        obtain rfl := pure_eq_ok.mp ok
        obtain ⟨rfl,answers⟩ := takeResults_eq_ok.mp taken
        obtain ⟨empty,nodup⟩ := not_or.mp (reject_eq_ok.mp ids)
        rw [List.length_append] at shorter
        obtain ⟨flat,each⟩ := ih (show left.length ≤ fuel by omega) later
        constructor
        · rw [List.flatten_cons,flat,List.cons_append]
        · rintro unit (_ | ⟨_,member⟩)
          · have alone := WellFormed.exchange calls empty (not_not.mp nodup) answers .nil
            rw [List.append_nil] at alone
            exact ⟨List.cons_ne_nil _ _,alone⟩
          · exact each unit member
      · have alone : WellFormed [current.1] := .plain role calls .nil
        cases rest with
        | nil =>
          cases ok
          simp [alone]
        | cons next rest =>
          dsimp only at ok
          split_ifs at ok with pair
          · obtain ⟨units',later,ok⟩ := bind_eq_ok.mp ok
            obtain rfl := pure_eq_ok.mp ok
            obtain ⟨flat,each⟩ := ih (by rw [List.length_cons] at shorter; omega) later
            have role' : next.1.role ≠ .tool := by
              rw [pair.2.1]
              decide
            constructor
            · rw [List.flatten_cons,flat]
              rfl
            · rintro unit (_ | ⟨_,member⟩)
              · exact ⟨List.cons_ne_nil _ _,.plain role calls (.plain role' pair.2.2 .nil)⟩
              · exact each unit member
          · obtain ⟨units',later,ok⟩ := bind_eq_ok.mp ok
            obtain rfl := pure_eq_ok.mp ok
            obtain ⟨flat,each⟩ := ih shorter later
            constructor
            · rw [List.flatten_cons,flat]
              rfl
            · rintro unit (_ | ⟨_,member⟩)
              · exact ⟨List.cons_ne_nil _ _,alone⟩
              · exact each unit member

theorem unitsFrom_complete {fuel : ℕ} {l : List Placed} (enough : l.length ≤ fuel)
    (whole : WellFormed (l.map Prod.fst)) : ∃ units, unitsFrom fuel l = .ok units := by
  induction fuel generalizing l with
  | zero => exact ⟨[],rfl⟩
  | succ fuel ih =>
    cases l with
    | nil => exact ⟨[],rfl⟩
    | cons current rest =>
      have shorter : rest.length ≤ fuel := Nat.le_of_succ_le_succ enough
      generalize same : (current :: rest).map Prod.fst = messages at whole
      rw [unitsFrom.eq_def]
      dsimp only
      cases whole with
      | nil => contradiction
      | @plain m later role calls whole =>
        obtain ⟨rfl,rfl⟩ := List.cons.inj same
        rw [if_neg role,if_neg calls]
        cases rest with
        | nil => exact ⟨_,rfl⟩
        | cons next rest =>
          dsimp only
          split_ifs with pair
          · obtain ⟨units,ok⟩ := ih (by rw [List.length_cons] at shorter; omega) (whole.tail pair.2.2)
            exact ⟨_,bind_eq_ok.mpr ⟨units,ok,rfl⟩⟩
          · obtain ⟨units,ok⟩ := ih shorter whole
            exact ⟨_,bind_eq_ok.mpr ⟨units,ok,rfl⟩⟩
      | @exchange m found later calls empty nodup answers whole =>
        obtain ⟨rfl,tail⟩ := List.cons.inj same
        obtain ⟨first,left,rfl,rfl,rfl⟩ := List.map_eq_append_iff.mp tail
        rw [List.length_append] at shorter
        obtain ⟨units,ok⟩ := ih (by omega) whole
        rw [if_neg calls.not_tool,if_pos calls]
        refine ⟨(current :: first) :: units,bind_eq_ok.mpr ⟨(),?_,?_⟩⟩
        · exact reject_eq_ok.mpr (not_or.mpr ⟨empty,not_not.mpr nodup⟩)
        refine bind_eq_ok.mpr ⟨(first,left),takeResults_eq_ok.mpr ⟨rfl,answers⟩,?_⟩
        refine bind_eq_ok.mpr ⟨(),reject_eq_ok.mpr ?_,bind_eq_ok.mpr ⟨units,ok,rfl⟩⟩
        rw [whole.starts]
        exact Bool.false_ne_true

theorem buildUnits_sound {messages : List ContextMessage} {units : List (List Placed)}
    (ok : buildUnits messages = .ok units) :
    units.flatten = messages.zipIdx ∧ ∀ unit ∈ units, unit ≠ [] ∧ WellFormed (unit.map Prod.fst) :=
  unitsFrom_sound List.length_zipIdx.le ok

theorem WellFormed.flatten {units : List (List Placed)} (each : ∀ unit ∈ units, WellFormed (unit.map Prod.fst)) :
    WellFormed (units.flatten.map Prod.fst) := by
  induction units with
  | nil => exact .nil
  | cons unit units ih =>
    obtain ⟨first,rest⟩ := List.forall_mem_cons.mp each
    rw [List.flatten_cons,List.map_append]
    exact first.append (ih rest)

theorem buildUnits_iff {messages : List ContextMessage} :
    (∃ units, buildUnits messages = .ok units) ↔ WellFormed messages := by
  constructor
  · rintro ⟨units,ok⟩
    obtain ⟨flat,each⟩ := buildUnits_sound ok
    rw [← List.zipIdx_map_fst 0 messages,← flat]
    exact .flatten fun unit member => (each unit member).2
  · intro whole
    apply unitsFrom_complete List.length_zipIdx.le
    rwa [List.zipIdx_map_fst]

end Units

section Identifiers

theorem checkIds_eq_ok {seen : List String} {messages : List ContextMessage} :
    checkIds seen messages = .ok () ↔
      "" ∉ messages.map (·.id) ∧ (messages.map (·.id)).Nodup ∧ ∀ m ∈ messages, m.id ∉ seen := by
  induction messages generalizing seen with
  | nil => simp [checkIds]
  | cons m rest ih =>
    rw [checkIds,bind_eq_ok]
    simp only [reject_eq_ok,ih,List.map_cons,List.mem_cons,List.nodup_cons,List.mem_map,not_or,not_exists,not_and]
    constructor
    · rintro ⟨-,⟨named,fresh⟩,others,nodup,apart⟩
      refine ⟨⟨Ne.symm named,others⟩,⟨fun m' member same => (apart m' member).1 same,nodup⟩,?_⟩
      rintro m' (rfl | member)
      · exact fresh
      · exact (apart m' member).2
    · rintro ⟨⟨named,others⟩,⟨single,nodup⟩,fresh⟩
      exact ⟨(),⟨Ne.symm named,fresh m (.inl rfl)⟩,others,nodup,
        fun m' member => ⟨single m' member,fresh m' (.inr member)⟩⟩

end Identifiers

end RatifyOs.Cognition
