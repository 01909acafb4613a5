import RatifyOs.Cognition.Compilation
import RatifyOs.Data.Rounding

/-! What `compileContext` prunes: the shortest prefix of the units that nothing protects after
which the rest fits, in exact numbers. -/
namespace RatifyOs.Cognition
open Data Data.Result

/-- Whether the message counted so far from its end is one of this many. -/
def Among (count : Double) (i : ℕ) : Prop :=
  match count with
  | .finite q => (i : ℚ) + 1 ≤ q
  | .infinite negative => negative = false
  | .nan => False

instance : ∀ (count : Double) (i : ℕ), Decidable (Among count i)
  | .finite q, i => inferInstanceAs (Decidable ((i : ℚ) + 1 ≤ q))
  | .infinite negative, _ => inferInstanceAs (Decidable (negative = false))
  | .nan, _ => inferInstanceAs (Decidable False)

section Guarded
variable (options : CompileOptions) (length : ℕ) (e : Placed)

def InHead : Prop := Among (options.headMessages.getD 1) e.2

def InTail : Prop := Among (options.tailMessages.getD 4) (length - 1 - e.2)

/-- A result whose evidence reference is not a safe one. -/
def Unsafe (m : ContextMessage) : Prop :=
  m.role = .tool ∧ m.evidenceRef.any (fun ref => ref ≠ "" ∧ safeEvidence ref = false) = true

/-- A message that is not to be removed. -/
def Guarded : Prop := InHead options e ∨ InTail options length e ∨ e.1.financial = true ∨ Unsafe e.1

instance : Decidable (Guarded options length e) :=
  inferInstanceAs (Decidable (Among _ _ ∨ Among _ _ ∨ _ ∨ _ ∧ _))

/-- The units that nothing protects, in order. -/
def freeUnits (units : List (List Placed)) : List (List Placed) :=
  units.filter fun unit => ∀ e ∈ unit, ¬Guarded options length e

end Guarded

section Counts
variable {h t : Double} {i length : ℕ}

theorem among_finite {q : ℚ} : Among (.finite q) i ↔ (i : ℤ) < ⌊q⌋ := by
  rw [Among,← Int.add_one_le_iff,Int.le_floor]
  push_cast
  exact Iff.rfl

theorem max_floor (q : ℚ) : Double.max 0 (Double.finite q).floor = .finite (max 0 ⌊q⌋ : ℤ) := by
  rw [Double.max,Double.floor,if_neg (by simp),Double.ofNat_eq]
  split_ifs with positive
  · rw [Double.finite_lt] at positive
    rw [max_eq_right (by exact_mod_cast positive.le)]
  · rw [Double.finite_lt,not_lt] at positive
    rw [max_eq_left (by exact_mod_cast positive)]
    rfl

theorem lt_head_iff : .finite i < Double.max 0 h.floor ↔ Among h i := by
  cases h with
  | finite q =>
    rw [max_floor,Double.finite_lt,among_finite]
    norm_cast
    omega
  | infinite negative =>
    cases negative with
    | false => exact iff_of_true rfl rfl
    | true =>
      have zero : Double.max 0 (Double.infinite true).floor = .finite (0 : ℕ) := rfl
      rw [zero,Double.finite_lt]
      exact iff_of_false (by norm_num) Bool.noConfusion
  | nan => exact iff_of_false Bool.noConfusion id

/-- The difference is rounded, which makes no difference to a comparison with an index. -/
theorem difference_le_iff (before : i < length) (array : length < 2 ^ 53) (k : ℤ) :
    Double.finite length - .finite k ≤ .finite i ↔ (length : ℤ) - k ≤ i := by
  have exact_ {n : ℕ} (small : n < 2 ^ 53) : Double.ofRat n = .finite n := Double.ofRat_natCast small
  have difference : Double.finite length - .finite k = Double.ofRat ((length : ℚ) - k) := by
    rw [sub_eq_add_neg]
    rfl
  rw [difference]
  constructor
  · intro le
    by_contra above
    rw [not_le,← Int.add_one_le_iff] at above
    have above : ((i + 1 : ℕ) : ℚ) ≤ length - k := by exact_mod_cast above
    have reached := Double.ofRat_mono above
    rw [exact_ (by omega)] at reached
    cases found : Double.ofRat ((length : ℚ) - k) with
    | finite r =>
      rw [found,Double.finite_le] at le reached
      push_cast at reached
      linarith
    | infinite negative =>
      rw [found] at le reached
      cases negative
      · cases le
      · cases reached
    | nan =>
      rw [found] at le
      cases le
  · intro le
    have le : (length : ℚ) - k ≤ (i : ℕ) := by exact_mod_cast le
    have reached := Double.ofRat_mono le
    rwa [exact_ (by omega)] at reached

theorem tail_le_iff (before : i < length) (array : length < 2 ^ 53) :
    Double.finite length - Double.max 0 t.floor ≤ .finite i ↔ Among t (length - 1 - i) := by
  cases t with
  | finite q =>
    rw [max_floor,difference_le_iff before array,among_finite]
    omega
  | infinite negative =>
    cases negative with
    | false => exact iff_of_true rfl rfl
    | true =>
      have zero : Double.max 0 (Double.infinite true).floor = .finite (0 : ℤ) := rfl
      rw [zero,difference_le_iff before array]
      exact iff_of_false (by omega) Bool.noConfusion
  | nan => exact iff_of_false Bool.noConfusion id

theorem max_floor_number (number : h ≠ .nan) : Double.max 0 h.floor ≠ .nan := by
  cases h with
  | finite q =>
    rw [max_floor]
    exact Double.noConfusion
  | infinite negative => cases negative <;> exact Double.noConfusion
  | nan => contradiction

/-- What `protectedUnit` asks for is what is not to be removed. -/
theorem guardedMessage_iff {options : CompileOptions} {e : Placed} (before : e.2 < length) (array : length < 2 ^ 53)
    (number : options.headMessages ≠ some .nan) : guardedMessage options length e = true ↔ Guarded options length e := by
  have number : options.headMessages.getD 1 ≠ .nan := by
    cases given : options.headMessages with
    | none => exact Double.noConfusion
    | some h => exact fun same => number (given.trans (congrArg some same))
  have head : options.head ≠ .nan := max_floor_number number
  have unsafe_ : (e.1.role = .tool ∧ (present e.1.evidenceRef).isSome = true) ∧ safeEvidenceRef e.1.evidenceRef = false ↔
      Unsafe e.1 := by
    unfold Unsafe
    cases e.1.evidenceRef with
    | none => simp [present]
    | some ref =>
      by_cases named : ref = "" <;> simp [present,Option.filter,safeEvidenceRef,named]
  have ahead : .finite e.2 < options.head ↔ InHead options e := lt_head_iff
  have behind : Double.finite length - options.tail ≤ .finite e.2 ↔ InTail options length e := tail_le_iff before array
  simp only [guardedMessage,Bool.or_eq_true,Bool.and_eq_true,decide_eq_true_eq,Bool.not_eq_true']
  rw [Double.max_le_iff head Double.noConfusion,← Double.not_lt_iff Double.noConfusion head,ahead,behind,unsafe_,Guarded]
  grind

end Counts

/-- The least number, up to all of them, at which the rest fits. -/
structure Shortest (fits : ℕ → Prop) (all n : ℕ) : Prop where
  within : n ≤ all
  enough : n = all ∨ fits n
  least : ∀ m < n, ¬fits m

section Totals
variable {cost : ContextMessage → ℕ} {estimate : ℕ → Double} {unit : List Placed} {units : List (List Placed)} {T budget : ℕ}

def spent (cost : ContextMessage → ℕ) (l : List Placed) : ℕ := (l.map fun e => cost e.1).sum

theorem spent_append (l l' : List Placed) : spent cost (l ++ l') = spent cost l + spent cost l' := by
  rw [spent,List.map_append,List.sum_append]
  rfl

theorem sub_natCast {a b : ℕ} (small : a < 2 ^ 53) (le : b ≤ a) : Double.finite a - .finite b = .finite (a - b : ℕ) := by
  rw [← Double.ofRat_natCast (show a - b < 2 ^ 53 by omega)]
  change Double.ofRat ((a : ℚ) + -b) = _
  rw [← sub_eq_add_neg,Nat.cast_sub le]

theorem add_natCast {a b : ℕ} (small : a + b < 2 ^ 53) : Double.finite a + .finite b = .finite (a + b : ℕ) := by
  rw [← Double.ofRat_natCast small,Nat.cast_add]
  rfl

theorem foldl_add (counts : List ℕ) (a : ℕ) (small : a + counts.sum < 2 ^ 53) :
    (counts.map fun n : ℕ => Double.finite n).foldl (· + ·) (.finite a) = .finite (a + counts.sum : ℕ) := by
  induction counts generalizing a with
  | nil => rfl
  | cons n counts ih =>
    rw [List.sum_cons] at small ⊢
    rw [List.map_cons,List.foldl_cons,add_natCast (by omega),ih (a + n) (by omega),Nat.add_assoc]

theorem foldl_sub (known : ∀ e ∈ unit, estimate e.2 = .finite (cost e.1)) (small : T < 2 ^ 53) (within : spent cost unit ≤ T) :
    unit.foldl (fun t e => t - estimate e.2) (.finite T) = .finite (T - spent cost unit : ℕ) := by
  induction unit generalizing T with
  | nil => rfl
  | cons e unit ih =>
    obtain ⟨first,rest⟩ := List.forall_mem_cons.mp known
    have parts : spent cost (e :: unit) = cost e.1 + spent cost unit := List.sum_cons
    rw [parts] at within ⊢
    rw [List.foldl_cons,first,sub_natCast small (by omega),ih rest (by omega) (by omega),Nat.sub_sub]

/-- With exact totals, the loop drops the shortest prefix of the units that are not protected. -/
theorem prune_shortest (isProtected : List Placed → Bool) (known : ∀ e ∈ units.flatten, estimate e.2 = .finite (cost e.1))
    (small : T < 2 ^ 53) (within : spent cost units.flatten ≤ T) :
    let free := units.filter (!isProtected ·)
    ∃ n, Shortest (fun m => T ≤ budget + spent cost (free.take m).flatten) free.length n ∧
      (prune (.finite budget) isProtected estimate (.finite T) units).removed = (free.take n).flatten ∧
      (prune (.finite budget) isProtected estimate (.finite T) units).tokens =
        .finite (T - spent cost (free.take n).flatten : ℕ) := by
  induction units generalizing T with
  | nil => exact ⟨0,⟨Nat.le_refl 0,.inl rfl,fun m less => absurd less (Nat.not_lt_zero m)⟩,rfl,rfl⟩
  | cons unit units ih =>
    intro free
    rw [List.flatten_cons,List.forall_mem_append] at known
    rw [List.flatten_cons,spent_append] at within
    rw [prune]
    split_ifs with fits held
    · rw [Double.finite_le] at fits
      have fits : T ≤ budget := by exact_mod_cast fits
      exact ⟨0,⟨Nat.zero_le _,.inr (by simp [spent,fits]),fun m less => absurd less (Nat.not_lt_zero m)⟩,rfl,rfl⟩
    · have same : free = units.filter (!isProtected ·) := List.filter_cons_of_neg (by simp [held])
      rw [same]
      exact ih known.2 small (by omega)
    · have same : free = unit :: units.filter (!isProtected ·) := List.filter_cons_of_pos (by simp [held])
      rw [Double.finite_le] at fits
      have above : budget < T := by
        rw [not_le] at fits
        exact_mod_cast fits
      rw [foldl_sub known.1 small (by omega),same]
      obtain ⟨n,⟨inside,enough,least⟩,removed,tokens⟩ := ih (T := T - spent cost unit) known.2 (by omega) (by omega)
      refine ⟨n + 1,⟨?_,?_,?_⟩,?_,?_⟩
      · exact Nat.succ_le_succ inside
      · refine enough.imp (congrArg Nat.succ) fun reached => ?_
        rw [List.take_succ_cons,List.flatten_cons,spent_append]
        omega
      · intro m less
        cases m with
        | zero =>
          rw [List.take_zero]
          exact not_le.mpr above
        | succ m =>
          have later := least m (Nat.lt_of_succ_lt_succ less)
          rw [List.take_succ_cons,List.flatten_cons,spent_append]
          omega
      · rw [List.take_succ_cons,List.flatten_cons]
        exact congrArg (unit ++ ·) removed
      · rw [List.take_succ_cons,List.flatten_cons,spent_append,← Nat.sub_sub]
        exact tokens

/-- What is kept are the other messages, in order. -/
theorem prune_kept {maxTokens tokens : Double} {isProtected : List Placed → Bool} (apart : (units.flatten.map Prod.snd).Nodup) :
    let p := prune maxTokens isProtected estimate tokens units
    p.kept = units.flatten.filter fun e => e.2 ∉ p.removed.map Prod.snd := by
  intro p
  suffices both : p.removed ⊆ units.flatten ∧ p.kept = units.flatten.filter fun e => e.2 ∉ p.removed.map Prod.snd from both.2
  apply prune_induction (P := fun units p => (units.flatten.map Prod.snd).Nodup →
    p.removed ⊆ units.flatten ∧ p.kept = units.flatten.filter fun e => e.2 ∉ p.removed.map Prod.snd) ?_ ?_ ?_ units tokens apart
  · intro units tokens _
    refine ⟨List.nil_subset _,(List.filter_eq_self.mpr fun e _ => ?_).symm⟩
    exact decide_eq_true List.not_mem_nil
  · intro unit units p ih apart
    rw [List.flatten_cons,List.map_append,List.nodup_append] at apart
    obtain ⟨inside,kept⟩ := ih apart.2.1
    refine ⟨fun e member => List.mem_append_right _ (inside member),?_⟩
    rw [List.flatten_cons,List.filter_append,← kept]
    refine congrArg (· ++ p.kept) (List.filter_eq_self.mpr fun e member => ?_).symm
    rw [decide_eq_true_eq]
    intro removed
    obtain ⟨e',among,same⟩ := List.mem_map.mp removed
    exact apart.2.2 _ (List.mem_map_of_mem member) _ (List.mem_map_of_mem (inside among)) same.symm
  · intro unit units p _ ih apart
    rw [List.flatten_cons,List.map_append,List.nodup_append] at apart
    obtain ⟨inside,kept⟩ := ih apart.2.1
    rw [List.flatten_cons]
    refine ⟨List.append_subset.mpr ⟨List.subset_append_left _ _,fun e member => List.mem_append_right _ (inside member)⟩,?_⟩
    have none_ : unit.filter (fun e => e.2 ∉ (unit ++ p.removed).map Prod.snd) = [] := by
      refine List.filter_eq_nil_iff.mpr fun e member => ?_
      simpa using fun absent => absurd member (absent e.1)
    rw [List.filter_append,none_,List.nil_append]
    refine kept.trans (List.filter_congr fun e member => ?_)
    have other : e.2 ∉ unit.map Prod.snd := fun first => apart.2.2 _ first _ (List.mem_map_of_mem member) rfl
    simp only [List.map_append,List.mem_append,other,false_or]

end Totals

section Estimates
variable {options : CompileOptions} {m : ContextMessage} {n : Double}

/-- An estimate that is valid, as a number of tokens. -/
def tokensOf (options : CompileOptions) (m : ContextMessage) : ℕ :=
  match options.baseEstimate m with
  | some (.finite q) => q.num.toNat
  | _ => 0

theorem countable_eq {q : ℚ} (counts : countable (.finite q) = true) : q = (q.num.toNat : ℚ) := by
  simp only [countable,Double.isFinite,Double.isInteger,Bool.true_and,Bool.and_eq_true,decide_eq_true_eq,
    Double.ofNat_eq,Double.finite_le,Nat.cast_zero] at counts
  have whole : q = (q.num : ℚ) := (Rat.den_eq_one_iff q).mp counts.2 |>.symm
  have nonneg : 0 ≤ q.num := Rat.num_nonneg.mpr counts.1
  rw [whole]
  exact_mod_cast (Int.toNat_of_nonneg nonneg).symm

theorem validatedEstimate_eq (ok : validatedEstimate options.baseEstimate m = .ok n) : n = .finite (tokensOf options m : ℕ) := by
  obtain ⟨x,given,ok⟩ := bind_eq_ok.mp ok
  obtain ⟨_,counts,ok⟩ := bind_eq_ok.mp ok
  obtain rfl := pure_eq_ok.mp ok
  have counts := Bool.eq_true_of_not_eq_false (reject_eq_ok.mp counts)
  rw [tokensOf,required_eq_ok.mp given]
  cases x with
  | finite q => exact congrArg Double.finite (countable_eq counts)
  | infinite negative => cases counts
  | nan => cases counts

end Estimates

section Specification
variable (input : List ContextMessage) (options : CompileOptions) (out : CompiledContext)

def total : ℕ := (input.map (tokensOf options)).sum

/-- The messages of the first free units. -/
def removal (units : List (List Placed)) (n : ℕ) : List Placed := ((freeUnits options input.length units).take n).flatten

def Fits (units : List (List Placed)) (n : ℕ) : Prop :=
  .finite ((total input options - spent (tokensOf options) (removal input options units n) : ℕ) : ℚ) ≤ options.maxTokens

def others (removed : List Placed) : List ContextMessage :=
  (input.zipIdx.filter fun e => e.2 ∉ removed.map Prod.snd).map Prod.fst

/-- The shortest prefix of the free units that makes the rest fit is what is removed, as wholes and
nothing else; no evidence is lost. -/
structure Prunes (units : List (List Placed)) (n : ℕ) : Prop where
  cut : buildUnits input = .ok units
  shortest : Shortest (Fits input options units) (freeUnits options input.length units).length n
  pruned : out.diagnostics.prunedMessageIds = (removal input options units n).map (·.1.id)
  kept : out.messages = others input (removal input options units n) ∨ ∃ before after summary,
    others input (removal input options units n) = before ++ after ∧ out.messages = before ++ summaryMessage summary :: after
  guarded : ∀ e ∈ input.zipIdx, Guarded options input.length e → e.2 ∉ (removal input options units n).map Prod.snd
  evidence : ∀ m ∈ input, m.role = .tool → ∀ ref, m.evidenceRef = some ref → safeEvidence ref = true →
    ref ∈ out.diagnostics.evidenceReferences

end Specification

section Selecting
variable {input : List ContextMessage} {options : CompileOptions} {s : Selection}

theorem fits_iff {units : List (List Placed)} {budget n : ℕ} (is : options.maxTokens = .finite budget) :
    Fits input options units n ↔
      total input options ≤ budget + spent (tokensOf options) (removal input options units n) := by
  rw [Fits,is,Double.finite_le,Nat.cast_le]
  omega

/-- What the selection comes to, in exact numbers. -/
theorem select_shortest (ok : select input options = .ok s) (small : total input options < 2 ^ 53)
    (array : input.length < 2 ^ 53) (number : options.headMessages ≠ some .nan) :
    ∃ units n, buildUnits input = .ok units ∧ Shortest (Fits input options units) (freeUnits options input.length units).length n ∧
      s.pruned = (removal input options units n).map Prod.fst ∧ s.kept = others input (removal input options units n) := by
  obtain ⟨_,counts,ok⟩ := bind_eq_ok.mp ok
  obtain ⟨_,-,ok⟩ := bind_eq_ok.mp ok
  obtain ⟨units,cut,ok⟩ := bind_eq_ok.mp ok
  obtain ⟨estimates,estimated,ok⟩ := bind_eq_ok.mp ok
  obtain rfl := pure_eq_ok.mp ok
  obtain ⟨flat,-⟩ := buildUnits_sound cut
  have estimates_eq : estimates = input.map fun m => .finite (tokensOf options m : ℕ) := by
    refine List.forall₂_eq_eq_eq ▸ List.forall₂_map_right_iff.mpr ?_
    exact (mapM_eq_ok.mp estimated).flip.imp fun n m one => validatedEstimate_eq one
  have free : units.filter (!protectedUnit options input.length ·) = freeUnits options input.length units := by
    refine List.filter_congr fun unit among => ?_
    have inside : ∀ e ∈ unit, e.2 < input.length := fun e member => by
      have there : e ∈ input.zipIdx := flat ▸ List.mem_flatten_of_mem among member
      exact (List.mem_zipIdx' there).1
    rw [Bool.eq_iff_iff,Bool.not_eq_true',Bool.eq_false_iff,decide_eq_true_eq,protectedUnit,Ne,List.any_eq_true,not_exists]
    refine forall_congr' fun e => ?_
    rw [not_and]
    exact forall_congr' fun member => not_congr (guardedMessage_iff (inside e member) array number)
  let estimate (i : ℕ) : Double := estimates.getD i 0
  have known : ∀ e ∈ units.flatten, estimate e.2 = .finite (tokensOf options e.1 : ℕ) := by
    intro e member
    have there : input[e.2]? = some e.1 := List.mem_zipIdx_iff_getElem?.mp (flat ▸ member)
    change estimates.getD e.2 0 = _
    rw [estimates_eq,List.getD_eq_getElem?_getD,List.getElem?_map,there]
    rfl
  have whole : spent (tokensOf options) units.flatten = total input options := by
    rw [flat,spent,total,← List.zipIdx_map_fst 0 input,List.map_map,List.zipIdx_map_fst]
    rfl
  have start : estimates.foldl (· + ·) 0 = .finite (total input options : ℕ) := by
    have sum := foldl_add (input.map (tokensOf options)) 0 (by rwa [Nat.zero_add])
    rw [Nat.zero_add,List.map_map] at sum
    rw [estimates_eq]
    exact sum
  obtain ⟨budget,is⟩ : ∃ budget : ℕ, options.maxTokens = .finite budget := by
    have counts := Bool.eq_true_of_not_eq_false (reject_eq_ok.mp counts)
    cases given : options.maxTokens with
    | finite q => exact ⟨_,congrArg _ (countable_eq (given ▸ counts))⟩
    | infinite negative => rw [given] at counts; cases counts
    | nan => rw [given] at counts; cases counts
  obtain ⟨n,shortest,removed,-⟩ : ∃ n, Shortest (fun m => total input options ≤
      budget + spent (tokensOf options) ((units.filter (!protectedUnit options input.length ·)).take m).flatten) _ n ∧ _ ∧ _ :=
    prune_shortest (protectedUnit options input.length) known small whole.le
  have apart : (units.flatten.map Prod.snd).Nodup := by
    rw [flat,List.zipIdx_map_snd]
    exact List.nodup_range'
  have kept : let p := prune options.maxTokens (protectedUnit options input.length) estimate (estimates.foldl (· + ·) 0) units
      p.kept = units.flatten.filter fun e => e.2 ∉ p.removed.map Prod.snd := prune_kept apart
  rw [free] at shortest removed
  rw [← start,← is] at removed
  rw [flat] at kept
  refine ⟨units,n,cut,?_,congrArg (List.map Prod.fst) removed,congrArg (List.map Prod.fst) (kept.trans ?_)⟩
  · refine ⟨shortest.within,shortest.enough.imp_right fun fits => ?_,fun m less fits => shortest.least m less ?_⟩
    · exact (fits_iff is).mpr fits
    · exact (fits_iff is).mp fits
  · rw [removed]
    rfl

end Selecting

section Compiling
variable {input : List ContextMessage} {options : CompileOptions} {answer : Answer} {out : CompiledContext}

theorem handoff_messages {s : Selection} {compiled : List ContextMessage} {summary : Option HandoffSummary}
    (handed : handoff options s answer = .ok (compiled,summary)) :
    compiled = s.kept ∨ ∃ before after summary, s.kept = before ++ after ∧ compiled = before ++ summaryMessage summary :: after := by
  unfold handoff at handed
  split at handed
  case h_1 => 
    cases handed
    exact .inl rfl
  case h_2 summary' _ =>
    obtain ⟨n,-,handed⟩ := bind_eq_ok.mp handed
    split_ifs at handed
    · cases handed
      exact .inr ⟨_,_,summary',(List.take_append_drop _ _).symm,rfl⟩
    · cases handed
      exact .inl rfl

theorem placed_eq {e e' : Placed} (inside : e ∈ input.zipIdx) (inside' : e' ∈ input.zipIdx) (same : e.2 = e'.2) : e = e' := by
  have first := List.mem_zipIdx_iff_getElem?.mp inside
  have second := List.mem_zipIdx_iff_getElem?.mp inside'
  rw [same,second] at first
  exact Prod.ext (Option.some.inj first.symm) same

theorem mem_removal {units : List (List Placed)} {n : ℕ} {e : Placed} (inside : e ∈ removal input options units n) :
    e ∈ units.flatten ∧ ¬Guarded options input.length e := by
  obtain ⟨unit,among,member⟩ := List.mem_flatten.mp inside
  obtain ⟨known,unguarded⟩ := List.mem_filter.mp (List.mem_of_mem_take among)
  exact ⟨List.mem_flatten_of_mem known member,of_decide_eq_true unguarded e member⟩

/-- The reference of a result is listed, be it pruned or kept. -/
theorem evidence_listed {s : Selection} {m : ContextMessage} (inside : m ∈ s.pruned ∨ m ∈ s.kept) (tool : m.role = .tool) {ref : String}
    (carries : m.evidenceRef = some ref) (safe : safeEvidence ref = true) :
    ref ∈ ((requiredReferences s.pruned).filterMap (·.evidenceRef)
      ++ (s.kept.filter fun m => safeEvidenceRef m.evidenceRef).filterMap (·.evidenceRef)).eraseDups := by
  have known : safeEvidenceRef m.evidenceRef = true := by
    rw [carries]
    exact safe
  rw [List.mem_eraseDups,List.mem_append,List.mem_filterMap,List.mem_filterMap]
  rcases inside with pruned | kept
  · refine .inl ⟨{ messageId := m.id, description := "Evidence reference", evidenceRef := m.evidenceRef },?_,carries⟩
    exact List.mem_map.mpr ⟨m,List.mem_filter.mpr ⟨pruned,by simp [tool,known]⟩,rfl⟩
  · exact .inr ⟨m,List.mem_filter.mpr ⟨kept,known⟩,carries⟩

/-- Of a message list whose estimates add up exactly, and where the head is a number, the units are
pruned in order until the rest fits, and nothing that is protected. -/
theorem compileContext_prunes (ran : compileContext input options answer = .ok out) (small : total input options < 2 ^ 53)
    (array : input.length < 2 ^ 32) (number : options.headMessages ≠ some .nan) :
    ∃ units n, Prunes input options out units n := by
  obtain ⟨s,selected,ran⟩ := bind_eq_ok.mp ran
  obtain ⟨⟨compiled,summary⟩,handed,ran⟩ := bind_eq_ok.mp ran
  obtain ⟨estimates,-,ran⟩ := bind_eq_ok.mp ran
  obtain rfl := pure_eq_ok.mp ran
  obtain ⟨units,n,cut,shortest,pruned,kept⟩ := select_shortest selected small (array.trans (by norm_num)) number
  have flat := (buildUnits_sound cut).1
  refine ⟨units,n,cut,shortest,?_,?_,?_,?_⟩
  · rw [pruned,List.map_map]
    rfl
  · rw [← kept]
    exact handoff_messages handed
  · intro e member guarded removed
    obtain ⟨e',among,same⟩ := List.mem_map.mp removed
    obtain ⟨there,unguarded⟩ := mem_removal among
    obtain rfl := placed_eq (flat ▸ there) member same
    exact unguarded guarded
  · intro m member tool ref carries safe
    refine evidence_listed ?_ tool carries safe
    obtain ⟨i,place⟩ := List.mem_iff_getElem?.mp member
    have there : (m,i) ∈ input.zipIdx := List.mem_zipIdx_iff_getElem?.mpr place
    by_cases removed : i ∈ (removal input options units n).map Prod.snd
    · obtain ⟨e,among,same⟩ := List.mem_map.mp removed
      obtain rfl := placed_eq (flat ▸ (mem_removal among).1) there same
      exact .inl (pruned ▸ List.mem_map_of_mem among)
    · exact .inr (kept ▸ List.mem_map_of_mem (List.mem_filter.mpr ⟨there,decide_eq_true removed⟩))

end Compiling

namespace Sample

theorem compileContext_prunes_ruled :
    ∃ out, compileContext ruled options answer = .ok out ∧ ∃ units n, Prunes ruled options out units n := by
  obtain ⟨out,ran,-⟩ : ∃ out, compileContext ruled options answer = .ok out ∧ True :=
    messages_of (fun _ => True) (by decide +kernel)
  exact ⟨out,ran,compileContext_prunes ran (by decide +kernel) (by decide) (by decide)⟩

/-- Two numbers of tokens that add up to one that there is not. -/
def vast : CompileOptions where
  maxTokens := .finite (2 ^ 53 : ℕ)
  headMessages := some 0
  tailMessages := some 0
  estimateTokens := some fun m => some (if m.id = "long" then .finite (2 ^ 53 : ℕ) else 1)

def pair : List ContextMessage := [message "long" .user,message "now" .user]

def headless : CompileOptions where
  maxTokens := 0
  headMessages := some .nan
  tailMessages := some 1
  estimateTokens := some fun _ => some 1

def lone : List ContextMessage := [message "now" .user]

theorem pruned_of {input : List ContextMessage} {options : CompileOptions} {ids : List String}
    (holds : (compileContext input options none).toOption.map (·.diagnostics.prunedMessageIds) = some ids) :
    ∃ out, compileContext input options none = .ok out ∧ out.diagnostics.prunedMessageIds = ids := by
  cases ran : compileContext input options none with
  | error error =>
    rw [ran] at holds
    cases holds
  | ok out =>
    rw [ran] at holds
    exact ⟨out,rfl,Option.some.inj holds⟩

/-- The sum is rounded, so that nothing is removed though the messages do not fit; and without a
number for the head, the tail is not protected either. -/
theorem compileContext_misprunes :
    (∃ out, compileContext pair vast none = .ok out ∧ ¬∃ units n, Prunes pair vast out units n) ∧
      ∃ out, compileContext lone headless none = .ok out ∧ ¬∃ units n, Prunes lone headless out units n := by
  constructor
  · obtain ⟨out,ran,none_⟩ := pruned_of (show (compileContext pair vast none).toOption.map _ = some [] by decide +kernel)
    refine ⟨out,ran,?_⟩
    rintro ⟨units,n,prunes⟩
    obtain rfl := Except.ok.inj (prunes.cut.symm.trans (show buildUnits pair = .ok [[(message "long" .user,0)],[(message "now" .user,1)]] by rfl))
    have removed := prunes.pruned.symm.trans none_
    have free : freeUnits vast pair.length [[(message "long" .user,0)],[(message "now" .user,1)]] =
        [[(message "long" .user,0)],[(message "now" .user,1)]] := List.filter_eq_self.mpr (by decide +kernel)
    have enough := prunes.shortest.enough
    rw [removal,free] at removed
    rw [free] at enough
    cases n with
    | zero =>
      rcases enough with all | fits
      · cases all
      · exact absurd ((fits_iff rfl).mp fits) (by decide +kernel)
    | succ n => cases removed
  · obtain ⟨out,ran,some_⟩ := pruned_of (show (compileContext lone headless none).toOption.map _ = some ["now"] by decide +kernel)
    refine ⟨out,ran,?_⟩
    rintro ⟨units,n,prunes⟩
    have guarded := prunes.guarded (message "now" .user,0) (by exact .head _) (by decide +kernel)
    have removed := prunes.pruned.symm.trans some_
    obtain ⟨e,member,-⟩ := List.mem_map.mp (removed.symm ▸ List.mem_singleton_self "now")
    have there := (buildUnits_sound prunes.cut).1 ▸ (mem_removal member).1
    obtain rfl := List.mem_singleton.mp there
    exact guarded (List.mem_map_of_mem member)

end Sample

end RatifyOs.Cognition
