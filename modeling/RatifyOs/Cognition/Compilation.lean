import RatifyOs.Cognition.Exchanges

/-! When what `compileContext` returns is a context that it takes again: always, unless the
summary is spliced into a tool exchange or next to a message that has its id. -/
namespace RatifyOs.Cognition
open Data Data.Result

section Prune
variable (maxTokens : Double) (isProtected : List Placed → Bool) (estimate : ℕ → Double)

/-- The loop over the units ends with all the rest kept, or it keeps a unit or drops one that
is not protected and goes on. -/
theorem prune_induction {maxTokens : Double} {isProtected : List Placed → Bool} {estimate : ℕ → Double}
    {P : List (List Placed) → Pruned → Prop}
    (ends : ∀ units tokens, P units ⟨[],units.flatten,tokens⟩)
    (keeps : ∀ unit units p, P units p → P (unit :: units) { p with kept := unit ++ p.kept })
    (drops : ∀ unit units p, isProtected unit = false → P units p →
      P (unit :: units) { p with removed := unit ++ p.removed })
    (units : List (List Placed)) (tokens : Double) :
    P units (prune maxTokens isProtected estimate tokens units) := by
  induction units generalizing tokens with
  | nil => exact ends [] tokens
  | cons unit units ih =>
    rw [prune]
    split_ifs with fits held
    · exact ends (unit :: units) tokens
    · exact keeps unit units _ (ih tokens)
    · exact drops unit units _ (Bool.eq_false_iff.mpr held) (ih _)

variable (tokens : Double) (units : List (List Placed))

theorem prune_kept_sublist : (prune maxTokens isProtected estimate tokens units).kept.Sublist units.flatten := by
  apply prune_induction (P := fun units p => p.kept.Sublist units.flatten)
  · intro units tokens
    exact .refl _
  · intro unit units p ih
    exact ih.append_left unit
  · intro unit units p _ ih
    exact ih.trans (List.sublist_append_right unit units.flatten)

/-- The units cut a list of messages that are numbered from `k` on. -/
structure Cut (l : List ContextMessage) (k : ℕ) (units : List (List Placed)) : Prop where
  flat : units.flatten = l.zipIdx k
  each : ∀ unit ∈ units, unit ≠ [] ∧ WellFormed (unit.map Prod.fst)

theorem Cut.wellFormed {units : List (List Placed)} {l : List ContextMessage} {k : ℕ} (cut : Cut l k units) : WellFormed l := by
  rw [← List.zipIdx_map_fst k l,← cut.flat]
  exact .flatten fun unit member => (cut.each unit member).2

theorem Cut.uncons {units : List (List Placed)} {l : List ContextMessage} {k : ℕ} {unit : List Placed} (cut : Cut l k (unit :: units)) :
    ∃ first rest, l = first ++ rest ∧ unit = first.zipIdx k ∧ first ≠ [] ∧ WellFormed first ∧
      Cut rest (k + first.length) units := by
  obtain ⟨⟨nonempty,alone⟩,each⟩ := List.forall_mem_cons.mp cut.each
  have flat := cut.flat
  rw [List.flatten_cons] at flat
  have whole : l = unit.map Prod.fst ++ units.flatten.map Prod.fst := by
    rw [← List.map_append,flat,List.zipIdx_map_fst]
  rw [whole,List.zipIdx_append] at flat
  obtain ⟨head,tail⟩ := List.append_inj flat (by rw [List.length_zipIdx,List.length_map])
  refine ⟨_,_,whole,head,?_,alone,tail,each⟩
  rwa [Ne,List.map_eq_nil_iff]

/-- What the loop keeps is well formed, and it has a tool result at the border of the head
exactly if there was one before: a unit that reaches into the head is kept. -/
theorem prune_border {isProtected : List Placed → Bool} {units : List (List Placed)} {n : ℕ}
    {l : List ContextMessage} {k : ℕ} (cut : Cut l k units)
    (held : ∀ unit ∈ units, ∀ e ∈ unit, e.2 < n → isProtected unit = true) :
    let kept := (prune maxTokens isProtected estimate tokens units).kept.map Prod.fst
    WellFormed kept ∧ startsWithTool (kept.drop (n - k)) = startsWithTool (l.drop (n - k)) := by
  refine @prune_induction maxTokens isProtected estimate (fun units p => ∀ l k, Cut l k units →
    (∀ unit ∈ units, ∀ e ∈ unit, e.2 < n → isProtected unit = true) → WellFormed (p.kept.map Prod.fst) ∧
      startsWithTool ((p.kept.map Prod.fst).drop (n - k)) = startsWithTool (l.drop (n - k)))
    ?_ ?_ ?_ units tokens l k cut held
  · intro units tokens l k cut _
    rw [cut.flat,List.zipIdx_map_fst]
    exact ⟨cut.wellFormed,rfl⟩
  · intro unit units p ih l k cut held
    obtain ⟨first,rest,rfl,rfl,nonempty,whole,cut'⟩ := cut.uncons
    obtain ⟨later,border⟩ := ih rest _ cut' (List.forall_mem_cons.mp held).2
    rw [List.map_append,List.zipIdx_map_fst]
    refine ⟨whole.append later,?_⟩
    rcases Nat.lt_or_ge (n - k) first.length with inside | beyond
    · have left : first.drop (n - k) ≠ [] := by
        rw [Ne,List.drop_eq_nil_iff,not_le]
        exact inside
      rw [List.drop_append_of_le_length inside.le,List.drop_append_of_le_length inside.le,
        startsWithTool_append left,startsWithTool_append left]
    · rw [List.drop_append,List.drop_append,List.drop_eq_nil_of_le beyond,List.nil_append,List.nil_append,
        Nat.sub_sub]
      exact border
  · intro unit units p free ih l k cut held
    obtain ⟨first,rest,rfl,rfl,nonempty,-,cut'⟩ := cut.uncons
    obtain ⟨heldFirst,heldRest⟩ := List.forall_mem_cons.mp held
    obtain ⟨later,-⟩ := ih rest _ cut' heldRest
    -- A unit that is dropped lies behind the head, and so does all that follows it.
    have behind : n ≤ k := by
      by_contra reaches
      obtain ⟨m,first,rfl⟩ := List.exists_cons_of_ne_nil nonempty
      rw [heldFirst (m,k) (List.mem_cons_self ..) (not_le.mp reaches)] at free
      contradiction
    rw [Nat.sub_eq_zero_of_le behind,List.drop_zero,List.drop_zero,later.starts,cut.wellFormed.starts]
    exact ⟨later,rfl⟩

end Prune

def Accepted (messages : List ContextMessage) : Prop :=
  checkIds [] messages = .ok () ∧ ∃ units, buildUnits messages = .ok units

theorem accepted_iff {messages : List ContextMessage} :
    Accepted messages ↔
      "" ∉ messages.map (·.id) ∧ (messages.map (·.id)).Nodup ∧ WellFormed messages := by
  rw [Accepted,checkIds_eq_ok,buildUnits_iff]
  constructor
  · rintro ⟨⟨named,nodup,-⟩,whole⟩
    exact ⟨named,nodup,whole⟩
  · rintro ⟨named,nodup,whole⟩
    exact ⟨⟨named,nodup,fun m _ => List.not_mem_nil⟩,whole⟩

section Head
variable {head : Double}

theorem lt_head_of_lt_spliceIndex {i length : ℕ} (before : i < spliceIndex head length) : .finite i < head := by
  cases head with
  | finite q =>
    have below : i < q.floor.toNat := lt_of_lt_of_le before (min_le_left _ _)
    rw [Double.finite_lt]
    calc (i : ℚ) < q.floor := by exact_mod_cast Int.lt_toNat.mp below
      _ ≤ q := Int.floor_le q
  | infinite negative =>
    cases negative with
    | false => rfl
    | true => exact absurd before (Nat.not_lt_zero i)
  | nan => exact absurd before (Nat.not_lt_zero i)

theorem drop_spliceIndex {l : List ContextMessage} {length : ℕ} (le : l.length ≤ length) :
    l.drop (spliceIndex head l.length) = l.drop (spliceIndex head length) := by
  have far {n : ℕ} (beyond : l.length ≤ n) : l.drop n = l.drop l.length := by
    rw [List.drop_eq_nil_of_le beyond,List.drop_length]
  cases head with
  | finite q =>
    rcases Nat.le_total q.floor.toNat l.length with short | long
    · rw [spliceIndex,spliceIndex,min_eq_left short,min_eq_left (short.trans le)]
    · rw [spliceIndex,spliceIndex,min_eq_right long]
      exact (far (le_min long le)).symm
  | infinite negative =>
    cases negative with
    | false => exact (far le).symm
    | true => rfl
  | nan => rfl

end Head

/-- What the selection leaves, beside the messages it was given. -/
structure Selected (input : List ContextMessage) (options : CompileOptions) (s : Selection) : Prop where
  accepted : Accepted input
  kept : s.kept.Sublist input
  whole : WellFormed s.kept
  border : startsWithTool (s.kept.drop (spliceIndex options.head s.kept.length))
    = startsWithTool (input.drop (spliceIndex options.head input.length))

theorem select_reads {input : List ContextMessage} {options : CompileOptions} {s : Selection}
    (ok : select input options = .ok s) : Selected input options s := by
  obtain ⟨_,-,ok⟩ := bind_eq_ok.mp ok
  obtain ⟨_,ids,ok⟩ := bind_eq_ok.mp ok
  obtain ⟨units,cut,ok⟩ := bind_eq_ok.mp ok
  obtain ⟨estimates,-,ok⟩ := bind_eq_ok.mp ok
  obtain rfl := pure_eq_ok.mp ok
  obtain ⟨flat,each⟩ := buildUnits_sound cut
  have held : ∀ unit ∈ units, ∀ e ∈ unit, e.2 < spliceIndex options.head input.length →
      protectedUnit options input.length unit = true := by
    intro unit _ e member before
    refine List.any_eq_true.mpr ⟨e,member,?_⟩
    simp [guardedMessage,lt_head_of_lt_spliceIndex before]
  have sublist := (prune_kept_sublist options.maxTokens (protectedUnit options input.length)
    (fun i => estimates.getD i 0) (estimates.foldl (· + ·) 0) units).map Prod.fst
  rw [flat,List.zipIdx_map_fst] at sublist
  obtain ⟨whole,border⟩ := prune_border options.maxTokens (fun i => estimates.getD i 0)
    (estimates.foldl (· + ·) 0) ⟨flat,each⟩ held
  exact ⟨⟨ids,units,cut⟩,sublist,whole,(congrArg startsWithTool (drop_spliceIndex sublist.length_le)).trans border⟩

def SummaryFits (options : CompileOptions) (s : Selection) (summary : HandoffSummary) : Prop :=
  ∃ n, validatedEstimate options.baseEstimate (summaryMessage summary) = .ok n ∧ s.tokens + n ≤ options.maxTokens

/-- Where a summary is to be spliced in, the message of the input at the border of the head is no
result, and no message that stays is called like the summary. -/
def Clear (input : List ContextMessage) (options : CompileOptions) (answer : Answer) : Prop :=
  ∀ s, select input options = .ok s → ∀ summary, summaryOf s.pruned answer = some summary →
    SummaryFits options s summary →
    startsWithTool (input.drop (spliceIndex options.head input.length)) = false ∧ summaryId ∉ s.kept.map (·.id)

section Splice
variable {input : List ContextMessage} {options : CompileOptions} {s : Selection}

theorem Selected.accepted_kept (selected : Selected input options s) : Accepted s.kept := by
  obtain ⟨named,nodup,-⟩ := accepted_iff.mp selected.accepted
  have sub := selected.kept.map (·.id)
  exact accepted_iff.mpr ⟨fun member => named (sub.subset member),nodup.sublist sub,selected.whole⟩

theorem Selected.accepted_spliced (selected : Selected input options s) (summary : HandoffSummary) :
    let index := spliceIndex options.head s.kept.length
    Accepted (s.kept.take index ++ summaryMessage summary :: s.kept.drop index) ↔
      startsWithTool (input.drop (spliceIndex options.head input.length)) = false ∧
        summaryId ∉ s.kept.map (·.id) := by
  intro index
  obtain ⟨named,nodup,whole⟩ := accepted_iff.mp selected.accepted_kept
  have apart : s.kept.take index ++ s.kept.drop index = s.kept := List.take_append_drop index s.kept
  have perm : ((s.kept.take index ++ summaryMessage summary :: s.kept.drop index).map (·.id)).Perm
      (summaryId :: s.kept.map (·.id)) := by
    have moved : (s.kept.take index ++ summaryMessage summary :: s.kept.drop index).Perm
        (summaryMessage summary :: (s.kept.take index ++ s.kept.drop index)) := List.perm_middle
    rw [apart] at moved
    exact moved.map (·.id)
  have splice := wellFormed_insert (m := summaryMessage summary) (apart.symm ▸ whole)
    (by decide : ContextRole.system ≠ .tool) (fun calls => absurd calls.1 (by decide : ContextRole.system ≠ .assistant))
  rw [accepted_iff,splice,selected.border,perm.mem_iff,perm.nodup_iff,List.mem_cons,List.nodup_cons]
  constructor
  · rintro ⟨-,⟨fresh,-⟩,border⟩
    exact ⟨border,fresh⟩
  · rintro ⟨border,fresh⟩
    exact ⟨not_or.mpr ⟨by decide,named⟩,⟨fresh,nodup⟩,border⟩

end Splice

/-- Whether a context is taken again under the same options depends on the checks of its
messages alone: the budget and the estimates have passed theirs already. -/
theorem compiles_again_iff {input : List ContextMessage} {options : CompileOptions} {answer : Answer}
    {out : CompiledContext} (ran : compileContext input options answer = .ok out) :
    (∃ again, compileContext out.messages options none = .ok again) ↔ Accepted out.messages := by
  constructor
  · rintro ⟨again,ran'⟩
    obtain ⟨s,ok,-⟩ := bind_eq_ok.mp ran'
    exact (select_reads ok).accepted
  · rintro ⟨ids,units,cut⟩
    obtain ⟨s,ok,ran⟩ := bind_eq_ok.mp ran
    obtain ⟨_,counts,-⟩ := bind_eq_ok.mp ok
    obtain ⟨⟨compiled,summary⟩,-,ran⟩ := bind_eq_ok.mp ran
    obtain ⟨estimates,estimated,ran⟩ := bind_eq_ok.mp ran
    obtain rfl := pure_eq_ok.mp ran
    obtain ⟨s',ok'⟩ : ∃ s', select compiled options = .ok s' :=
      ⟨_,bind_eq_ok.mpr ⟨_,counts,bind_eq_ok.mpr ⟨_,ids,bind_eq_ok.mpr ⟨_,cut,
        bind_eq_ok.mpr ⟨_,estimated,rfl⟩⟩⟩⟩⟩
    have handed : handoff options s' none = .ok (s'.kept,none) := by
      have none : summaryOf s'.pruned none = none := ite_self _
      rw [handoff,none]
    have each := (exists_mapM_eq_ok _ compiled).mp ⟨estimates,estimated⟩
    obtain ⟨estimates',estimated'⟩ := (exists_mapM_eq_ok (validatedEstimate options.baseEstimate) s'.kept).mpr
      fun m member => each m ((select_reads ok').kept.subset member)
    exact ⟨_,bind_eq_ok.mpr ⟨s',ok',bind_eq_ok.mpr ⟨_,handed,bind_eq_ok.mpr ⟨estimates',estimated',rfl⟩⟩⟩⟩

theorem compiled_accepted_iff {input : List ContextMessage} {options : CompileOptions} {answer : Answer}
    {out : CompiledContext} (ran : compileContext input options answer = .ok out) :
    Accepted out.messages ↔ Clear input options answer := by
  obtain ⟨s,ok,ran⟩ := bind_eq_ok.mp ran
  obtain ⟨⟨compiled,summary⟩,handed,ran⟩ := bind_eq_ok.mp ran
  obtain ⟨estimates,-,ran⟩ := bind_eq_ok.mp ran
  obtain rfl := pure_eq_ok.mp ran
  have selected := select_reads ok
  have clear_iff : Clear input options answer ↔ ∀ summary, summaryOf s.pruned answer = some summary →
      SummaryFits options s summary →
      startsWithTool (input.drop (spliceIndex options.head input.length)) = false ∧ summaryId ∉ s.kept.map (·.id) := by
    constructor
    · intro clear
      exact clear s ok
    · intro clear s' ok'
      obtain rfl := Except.ok.inj (ok.symm.trans ok')
      exact clear
  rw [clear_iff]
  unfold handoff at handed
  split at handed
  case h_1 none =>
    cases handed
    refine ⟨fun _ summary some => ?_,fun _ => selected.accepted_kept⟩
    rw [none] at some
    contradiction
  case h_2 summary' some =>
    obtain ⟨n,estimated,handed⟩ := bind_eq_ok.mp handed
    split_ifs at handed with room
    · cases handed
      apply (selected.accepted_spliced summary').trans
      constructor
      · rintro clear _ _ _
        exact clear
      · intro clear
        exact clear summary' some ⟨n,estimated,room⟩
    · cases handed
      refine ⟨?_,fun _ => selected.accepted_kept⟩
      rintro _ summary same ⟨n',estimated',room'⟩
      obtain rfl := Option.some.inj (some.symm.trans same)
      obtain rfl := Except.ok.inj (estimated.symm.trans estimated')
      exact absurd room' room

namespace Sample

def message (id : String) (role : ContextRole) : ContextMessage where
  id := id
  role := role
  content := id

def call : ContextMessage :=
  { message "call" .assistant with toolCalls := some [{ id := "c1", name := "lookup", arguments := .null }] }

def result : ContextMessage := { message "result" .tool with toolCallId := some "c1" }

def options : CompileOptions where
  maxTokens := 10
  tailMessages := some 1
  estimateTokens := some fun m => some (if m.id = "long" then 100 else 1)

def straddling : List ContextMessage := [call,result,message "long" .user,message "now" .user]

def ruled : List ContextMessage := [message "rules" .system,message "long" .user,message "now" .user]

def later : List ContextMessage := [message "long" .user,message "last" .user]

def wider : CompileOptions := { options with headMessages := some 2 }

/-- What the summarizer lists is optional. -/
def answer : Answer := some []

instance (messages : List ContextMessage) : Decidable (Accepted messages) :=
  decidable_of_iff ((checkIds [] messages).isOk ∧ (buildUnits messages).isOk) (by
    unfold Accepted
    apply and_congr
    · cases checkIds [] messages <;> simp [Except.isOk,Except.toBool]
    · cases buildUnits messages <;> simp [Except.isOk,Except.toBool])

theorem messages_of {input : List ContextMessage} {options : CompileOptions} (P : List ContextMessage → Prop)
    (holds : ∃ out ∈ (compileContext input options answer).toOption, P out.messages) :
    ∃ out, compileContext input options answer = .ok out ∧ P out.messages := by
  obtain ⟨out,done,holds⟩ := holds
  cases ran : compileContext input options answer with
  | error error =>
    rw [ran] at done
    contradiction
  | ok out' =>
    rw [ran] at done
    obtain rfl := Option.some.inj done
    exact ⟨_,rfl,holds⟩

theorem compiled_accepted_ruled :
    ∃ out, compileContext ruled options answer = .ok out ∧ (Accepted out.messages ↔ Clear ruled options answer) := by
  obtain ⟨out,ran,-⟩ : ∃ out, compileContext ruled options answer = .ok out ∧ True :=
    messages_of (fun _ => True) (by decide +kernel)
  exact ⟨out,ran,compiled_accepted_iff ran⟩

/-- The summary comes between the call and its result; and where an earlier summary is in the
head by now, there are two messages of one id. -/
theorem compiled_refused :
    (∃ out, compileContext straddling options answer = .ok out ∧ ¬Accepted out.messages) ∧
      ∃ first, compileContext ruled options answer = .ok first ∧
        ∃ out, compileContext (first.messages ++ later) wider answer = .ok out ∧ ¬Accepted out.messages := by
  constructor
  · exact messages_of (fun messages => ¬Accepted messages) (by decide +kernel)
  · have runs : ∃ first ∈ (compileContext ruled options answer).toOption,
        ∃ out ∈ (compileContext (first.messages ++ later) wider answer).toOption, ¬Accepted out.messages := by
      decide +kernel
    obtain ⟨first,ran,next⟩ := messages_of (fun messages =>
      ∃ out ∈ (compileContext (messages ++ later) wider answer).toOption, ¬Accepted out.messages) runs
    exact ⟨first,ran,messages_of (fun messages => ¬Accepted messages) next⟩

end Sample

end RatifyOs.Cognition
