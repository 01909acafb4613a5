import Mathlib.Algebra.BigOperators.Group.List.Lemmas
import Mathlib.Data.List.Perm.Basic
import RatifyOs.Signer.Policy

/-! What may leave the wallet: every asset is capped over all the instructions that spend
it, whatever the order of the rules. -/
namespace RatifyOs.Signer
open Data Data.Result

section Match

/-- The rule is about this program, and the data begins with its discriminator. -/
def SignerProgramRule.Matches (rule : SignerProgramRule) (programId dataHex : String) : Prop :=
  rule.programId = programId ∧ rule.discriminator.toList <+: dataHex.toList

instance (rule : SignerProgramRule) (programId dataHex : String) : Decidable (rule.Matches programId dataHex) :=
  inferInstanceAs (Decidable (_ ∧ _))

/-- The rule matches, and no rule that matches has a longer discriminator. -/
def Specific (rules : List SignerProgramRule) (programId dataHex : String) (rule : SignerProgramRule) : Prop :=
  rule ∈ rules ∧ rule.Matches programId dataHex ∧
    ∀ other ∈ rules, other.Matches programId dataHex → other.discriminator.length ≤ rule.discriminator.length

instance (rules : List SignerProgramRule) (programId dataHex : String) (rule : SignerProgramRule) :
    Decidable (Specific rules programId dataHex rule) :=
  inferInstanceAs (Decidable (_ ∧ _ ∧ _))

variable {rules rules' : List SignerProgramRule} {programId dataHex : String}

/-- What the loop has found: a most specific rule, or that no rule matches. -/
private def Found (rules : List SignerProgramRule) (programId dataHex : String) : Option SignerProgramRule → Prop
  | some best => Specific rules programId dataHex best
  | none => ∀ rule ∈ rules, ¬rule.Matches programId dataHex

private theorem matchRule_append (rule : SignerProgramRule) : matchRule (rules ++ [rule]) programId dataHex =
    let found := matchRule rules programId dataHex
    if rule.programId ≠ programId then found
    else if ¬rule.discriminator.toList <+: dataHex.toList then (found.1,true)
    else if found.1.all fun best => rule.discriminator.length > best.discriminator.length then (some rule,true)
    else (found.1,true) := by
  simp [matchRule]

private theorem Found.skip {best : Option SignerProgramRule} (found : Found rules programId dataHex best)
    {rule : SignerProgramRule} (other : ¬rule.Matches programId dataHex) : Found (rules ++ [rule]) programId dataHex best := by
  cases best with
  | none => exact List.forall_mem_append.mpr ⟨found,List.forall_mem_singleton.mpr other⟩
  | some best =>
    obtain ⟨there,matches_,longest⟩ := found
    have last : rule.Matches programId dataHex → rule.discriminator.length ≤ best.discriminator.length := fun same => absurd same other
    exact ⟨List.mem_append_left _ there,matches_,List.forall_mem_append.mpr ⟨longest,List.forall_mem_singleton.mpr last⟩⟩

theorem matchRule_found (rules : List SignerProgramRule) (programId dataHex : String) :
    Found rules programId dataHex (matchRule rules programId dataHex).1 ∧
      (matchRule rules programId dataHex).2 = rules.any fun rule => rule.programId = programId := by
  induction rules using List.reverseRecOn with
  | nil => exact ⟨nofun,rfl⟩
  | append_singleton rules rule ih =>
    obtain ⟨found,allowed⟩ := ih
    rw [matchRule_append,List.any_append]
    dsimp only
    split_ifs with elsewhere begins longer
    · refine ⟨found.skip fun same => elsewhere same.1,?_⟩
      simp [allowed,elsewhere]
    · refine ⟨⟨by simp,⟨not_not.mp elsewhere,begins⟩,List.forall_mem_append.mpr ⟨fun other old same => ?_,?_⟩⟩,
        by simp [not_not.mp elsewhere]⟩
      · cases best : (matchRule rules programId dataHex).1 with
        | none =>
          rw [best] at found
          exact absurd same (found other old)
        | some b =>
          rw [best] at found longer
          have shorter : b.discriminator.length < rule.discriminator.length := by simpa using longer
          exact (found.2.2 other old same).trans shorter.le
      · exact List.forall_mem_singleton.mpr fun _ => le_rfl
    · refine ⟨?_,by simp [not_not.mp elsewhere]⟩
      cases best : (matchRule rules programId dataHex).1 with
      | none => simp [best] at longer
      | some b =>
        rw [best] at found longer
        obtain ⟨there,matches_,longest⟩ := found
        have last : rule.discriminator.length ≤ b.discriminator.length := by simpa using longer
        exact ⟨List.mem_append_left _ there,matches_,
          List.forall_mem_append.mpr ⟨longest,List.forall_mem_singleton.mpr fun _ => last⟩⟩
    · refine ⟨found.skip fun same => begins same.2,?_⟩
      simp [not_not.mp elsewhere]

theorem specific_of_matchRule {rule : SignerProgramRule} (found : (matchRule rules programId dataHex).1 = some rule) :
    Specific rules programId dataHex rule := by
  have spec := (matchRule_found rules programId dataHex).1
  rwa [found] at spec

theorem Specific.unique (apart : (rules.map SignerProgramRule.key).Nodup) {rule rule' : SignerProgramRule}
    (first : Specific rules programId dataHex rule) (second : Specific rules programId dataHex rule') : rule = rule' := by
  obtain ⟨there,⟨program,begins⟩,longest⟩ := first
  obtain ⟨there',⟨program',begins'⟩,longest'⟩ := second
  have long := longest rule' there' ⟨program',begins'⟩
  have short := longest' rule there ⟨program,begins⟩
  have same : rule.discriminator = rule'.discriminator := by
    have texts := List.prefix_of_prefix_length_le begins begins' (by rwa [String.length_toList,String.length_toList])
    exact String.toList_injective (texts.eq_of_length (by rw [String.length_toList,String.length_toList,le_antisymm short long]))
  refine List.inj_on_of_nodup_map apart there there' ?_
  simp [SignerProgramRule.key,program,program',same]

theorem matchRule_eq_some_iff (apart : (rules.map SignerProgramRule.key).Nodup) {rule : SignerProgramRule} :
    (matchRule rules programId dataHex).1 = some rule ↔ Specific rules programId dataHex rule := by
  refine ⟨specific_of_matchRule,fun specific => ?_⟩
  have found := (matchRule_found rules programId dataHex).1
  cases best : (matchRule rules programId dataHex).1 with
  | none =>
    rw [best] at found
    exact absurd specific.2.1 (found rule specific.1)
  | some b =>
    rw [best] at found
    exact congrArg some (found.unique apart specific)

theorem Specific.perm (perm : rules.Perm rules') {rule : SignerProgramRule} :
    Specific rules programId dataHex rule ↔ Specific rules' programId dataHex rule := by
  simp only [Specific,perm.mem_iff]

theorem matchRule_perm (perm : rules.Perm rules') (apart : (rules.map SignerProgramRule.key).Nodup)
    (programId dataHex : String) : matchRule rules programId dataHex = matchRule rules' programId dataHex := by
  have apart' : (rules'.map SignerProgramRule.key).Nodup := (perm.map _).nodup_iff.mp apart
  refine Prod.ext (Option.ext fun rule => ?_) ?_
  · rw [matchRule_eq_some_iff apart,matchRule_eq_some_iff apart',Specific.perm perm]
  · rw [(matchRule_found rules programId dataHex).2,(matchRule_found rules' programId dataHex).2]
    exact perm.any_eq

end Match

section Gather
variable {rules : List SignerProgramRule}

theorem readAmount_eq_ok {data : Bytes} {offset : ℕ} {encoding : AmountEncoding} {amount : ℕ} :
    readAmount data offset encoding = .ok amount ↔
      offset + encoding.width ≤ data.length ∧ littleEndian ((data.drop offset).take encoding.width) = amount := by
  simp only [readAmount,bind_eq_ok,reject_eq_ok,pure_eq_ok,not_lt,exists_and_left,exists_const]

theorem gather_cases {so so' : Gathered} {ix : DecodedInstruction} (passed : gather rules so ix = .ok so') :
    ∃ rule, Specific rules ix.programId ix.dataHex rule ∧
      match rule.effect with
      | .none => so' = so
      | .fee =>
        (rule.discriminator = SET_UNIT_LIMIT ∧ so.explicitLimit = none ∧
          ∃ limit, readAmount ix.data 1 .u32le = .ok limit ∧ so' = { so with explicitLimit := some limit }) ∨
        (rule.discriminator ≠ SET_UNIT_LIMIT ∧ rule.discriminator = SET_UNIT_PRICE ∧ so.unitPrice = none ∧
          ∃ price, readAmount ix.data 1 .u64le = .ok price ∧ so' = { so with unitPrice := some price }) ∨
        (rule.discriminator ≠ SET_UNIT_LIMIT ∧ rule.discriminator ≠ SET_UNIT_PRICE ∧ so' = so)
      | .spend spend => ∃ amount, readAmount ix.data spend.amountOffset spend.amountEncoding = .ok amount ∧
          so' = { so with spend := amounts.add so.spend (spend.asset,amount) } := by
  simp only [gather,bind_eq_ok,reject_eq_ok,required_eq_ok] at passed
  obtain ⟨_,_,rule,found,passed⟩ := passed
  refine ⟨rule,specific_of_matchRule found,?_⟩
  cases effect : rule.effect with
  | none =>
    simp only [effect,pure_eq_ok] at passed
    exact passed.symm
  | fee =>
    simp only [effect] at passed
    split_ifs at passed with limit price
    · simp only [bind_eq_ok,reject_eq_ok,pure_eq_ok] at passed
      obtain ⟨_,first,amount,read,rfl⟩ := passed
      exact .inl ⟨limit,by simpa using first,amount,read,rfl⟩
    · simp only [bind_eq_ok,reject_eq_ok,pure_eq_ok] at passed
      obtain ⟨_,first,amount,read,rfl⟩ := passed
      exact .inr (.inl ⟨limit,price,by simpa using first,amount,read,rfl⟩)
    · simp only [pure_eq_ok] at passed
      exact .inr (.inr ⟨limit,price,passed.symm⟩)
  | spend spend =>
    simp only [effect,bind_eq_ok,pure_eq_ok] at passed
    obtain ⟨_,_,amount,read,rfl⟩ := passed
    exact ⟨amount,read,rfl⟩

/-- What the instruction spends of the asset under its most specific rule. -/
def leaving (rules : List SignerProgramRule) (asset : String) (ix : DecodedInstruction) : ℕ :=
  match (rules.find? fun rule => Specific rules ix.programId ix.dataHex rule).map SignerProgramRule.effect with
  | some (.spend spend) =>
    if spend.asset = asset then littleEndian ((ix.data.drop spend.amountOffset).take spend.amountEncoding.width) else 0
  | _ => 0

/-- The most specific rule of the instruction spends the asset. -/
def Spends (rules : List SignerProgramRule) (asset : String) (ix : DecodedInstruction) : Prop :=
  ∃ rule spend, Specific rules ix.programId ix.dataHex rule ∧ rule.effect = .spend spend ∧ spend.asset = asset

theorem find?_specific (apart : (rules.map SignerProgramRule.key).Nodup) {programId dataHex : String}
    {rule : SignerProgramRule} (specific : Specific rules programId dataHex rule) :
    (rules.find? fun rule => Specific rules programId dataHex rule) = some rule := by
  cases found : rules.find? fun rule => Specific rules programId dataHex rule with
  | none =>
    rw [List.find?_eq_none] at found
    exact absurd (decide_eq_true specific) (found rule specific.1)
  | some other =>
    have first : Specific rules programId dataHex other := by simpa using List.find?_some found
    exact congrArg some (first.unique apart specific)

variable (apart : (rules.map SignerProgramRule.key).Nodup)
include apart

theorem total_gather {so so' : Gathered} {ix : DecodedInstruction} (passed : gather rules so ix = .ok so') (asset : String) :
    amounts.total so'.spend asset = amounts.total so.spend asset + leaving rules asset ix := by
  obtain ⟨rule,specific,case_⟩ := gather_cases passed
  unfold leaving
  rw [find?_specific apart specific,Option.map_some]
  cases effect : rule.effect with
  | none =>
    simp only [effect] at case_
    subst case_
    rfl
  | fee =>
    simp only [effect] at case_
    obtain ⟨_,_,_,_,rfl⟩ | ⟨_,_,_,_,_,rfl⟩ | ⟨_,_,rfl⟩ := case_ <;> rfl
  | spend spend =>
    simp only [effect] at case_
    obtain ⟨amount,read,rfl⟩ := case_
    obtain ⟨_,rfl⟩ := readAmount_eq_ok.mp read
    exact amounts.total_add so.spend _ asset

theorem total_gathered {ixs : List DecodedInstruction} {so so' : Gathered} (passed : ixs.foldlM (gather rules) so = .ok so')
    (asset : String) :
    amounts.total so'.spend asset = amounts.total so.spend asset + (ixs.map (leaving rules asset)).sum := by
  induction ixs generalizing so with
  | nil =>
    cases passed
    simp
  | cons ix ixs ih =>
    simp only [List.foldlM_cons,bind_eq_ok] at passed
    obtain ⟨mid,first,rest⟩ := passed
    rw [ih rest,total_gather apart first,List.map_cons,List.sum_cons,Nat.add_assoc]

theorem isSome_gather {so so' : Gathered} {ix : DecodedInstruction} (passed : gather rules so ix = .ok so') {asset : String}
    (known : Spends rules asset ix ∨ (so.spend.find? asset).isSome = true) : (so'.spend.find? asset).isSome = true := by
  obtain ⟨rule,specific,case_⟩ := gather_cases passed
  have kept (same : so'.spend = so.spend) (none_ : ∀ spend, rule.effect ≠ .spend spend) :
      (so'.spend.find? asset).isSome = true := by
    rw [same]
    refine known.resolve_left fun ⟨rule',spend,specific',effect,_⟩ => ?_
    rw [← specific.unique apart specific'] at effect
    exact none_ spend effect
  cases effect : rule.effect with
  | none =>
    simp only [effect] at case_
    exact kept (by rw [case_]) (by simp [effect])
  | fee =>
    simp only [effect] at case_
    refine kept ?_ (by simp [effect])
    obtain ⟨_,_,_,_,rfl⟩ | ⟨_,_,_,_,_,rfl⟩ | ⟨_,_,rfl⟩ := case_ <;> rfl
  | spend spend =>
    simp only [effect] at case_
    obtain ⟨amount,_,rfl⟩ := case_
    rw [amounts.isSome_add]
    refine known.imp_left fun ⟨rule',spend',specific',effect',same⟩ => ?_
    rw [← specific.unique apart specific',effect,Effect.spend.injEq] at effect'
    rw [effect']
    exact same

theorem isSome_gathered {ixs : List DecodedInstruction} {so so' : Gathered} (passed : ixs.foldlM (gather rules) so = .ok so')
    {asset : String} (known : (∃ ix ∈ ixs, Spends rules asset ix) ∨ (so.spend.find? asset).isSome = true) :
    (so'.spend.find? asset).isSome = true := by
  induction ixs generalizing so with
  | nil =>
    cases passed
    simpa using known
  | cons ix ixs ih =>
    simp only [List.foldlM_cons,bind_eq_ok] at passed
    obtain ⟨mid,first,rest⟩ := passed
    rw [List.exists_mem_cons_iff,or_right_comm] at known
    obtain here | later := known
    · exact ih rest (.inr (isSome_gather apart first here))
    · exact ih rest (.inl later)

end Gather

theorem specific_gathered {rules : List SignerProgramRule} {ixs : List DecodedInstruction} {so so' : Gathered}
    (passed : ixs.foldlM (gather rules) so = .ok so') : ∀ ix ∈ ixs, ∃ rule, Specific rules ix.programId ix.dataHex rule := by
  induction ixs generalizing so with
  | nil => nofun
  | cons ix ixs ih =>
    simp only [List.foldlM_cons,bind_eq_ok] at passed
    obtain ⟨mid,first,rest⟩ := passed
    obtain ⟨rule,specific,_⟩ := gather_cases first
    exact List.forall_mem_cons.mpr ⟨⟨rule,specific⟩,ih rest⟩

theorem gather_perm {rules rules' : List SignerProgramRule} (perm : rules.Perm rules')
    (apart : (rules.map SignerProgramRule.key).Nodup) : gather rules = gather rules' := by
  funext so ix
  unfold gather
  rw [matchRule_perm perm apart]

section Loaded
variable {decode : String → Option Bytes} {sha256 : Text → String} {file : PolicyFile} {policy : LoadedSignPolicy}

theorem loadSignPolicy_apart (loaded : loadSignPolicy decode sha256 file = .ok policy) :
    (policy.programs.map SignerProgramRule.key).Nodup := by
  simp only [loadSignPolicy,bind_eq_ok,reject_eq_ok,pure_eq_ok,not_not] at loaded
  obtain ⟨_,_,_,_,_,_,_,_,_,_,_,_,programs,_,_,apart,_,_,_,_,_,_,_,_,_,_,_,_,_,_,_,_,rfl⟩ := loaded
  exact apart

theorem evaluatePolicy_bounds (loaded : loadSignPolicy decode sha256 file = .ok policy) :
    (∀ decoded payer result, evaluatePolicy decoded policy.toSignPolicy payer = .ok result →
      (∀ ix ∈ decoded.instructions, ∃ rule, Specific policy.programs ix.programId ix.dataHex rule) ∧
      ∀ asset, (decoded.instructions.map (leaving policy.programs asset)).sum ≤ (policy.caps.lookup asset).getD 0 ∧
        ((∃ ix ∈ decoded.instructions, Spends policy.programs asset ix) → (policy.caps.lookup asset).isSome = true)) ∧
    ∀ programs, programs.Perm policy.programs → ∀ decoded payer,
      evaluatePolicy decoded { policy.toSignPolicy with programs } payer = evaluatePolicy decoded policy.toSignPolicy payer := by
  have apart := loadSignPolicy_apart loaded
  refine ⟨fun decoded payer result accepted => ?_,fun programs perm decoded payer => ?_⟩
  · simp only [evaluatePolicy,bind_eq_ok,reject_eq_ok,pure_eq_ok] at accepted
    obtain ⟨_,_,_,_,_,_,_,_,_,_,so,gathered,_,_,_,_,_,_,_,_,_,capped,_⟩ := accepted
    refine ⟨specific_gathered gathered,fun asset => ?_⟩
    have total := total_gathered apart gathered asset
    rw [amounts.total_empty,Nat.zero_add,amounts.total_eq_find?] at total
    rw [← total]
    cases found : so.spend.find? asset with
    | none =>
      refine ⟨Nat.zero_le _,fun spent => ?_⟩
      have there := isSome_gathered apart gathered (.inl spent)
      rw [found] at there
      cases there
    | some entry =>
      have passed := forM_eq_ok.mp capped entry (Table.mem_of_find? found)
      simp only [checkCap,bind_eq_ok,required_eq_ok,reject_eq_ok,not_lt] at passed
      obtain ⟨cap,known,within⟩ := passed
      rw [Table.key_of_find? found] at known
      rw [known]
      exact ⟨within,fun _ => rfl⟩
  · unfold evaluatePolicy
    rw [gather_perm perm.symm apart]

end Loaded

namespace Sample

/-- Five lamports, in the eight bytes after the tag of a system transfer. -/
def transferData : Bytes := [2,0,0,0,5,0,0,0,0,0,0,0]

def transferMessage : Message := { message 1 with compiledInstructions := [⟨1,[0,0],transferData⟩] }

def transfer : DecodedTransaction where
  version := none
  feePayer := payerKey
  recentBlockhash := transferMessage.recentBlockhash
  numRequiredSignatures := 1
  staticAccountKeys := [payerKey,systemKey]
  signatures := [none]
  addressTableLookups := []
  instructions := [⟨systemKey,1,[0,0],[some payerKey,some payerKey],transferData,"020000000500000000000000"⟩]
  messageBytes := []
  messageBase64 := ""
  messageHash := ""
  wireBase64 := ""
  transaction := ⟨[List.replicate 64 0],transferMessage⟩

theorem transfer_accepted : (evaluatePolicy transfer signPolicy.toSignPolicy payerKey).isOk = true := by decide +kernel

theorem transfer_bounded : (transfer.instructions.map (leaving signPolicy.programs "native")).sum ≤ 1000 ∧
    evaluatePolicy transfer { signPolicy.toSignPolicy with programs := signPolicy.programs.reverse } payerKey =
      evaluatePolicy transfer signPolicy.toSignPolicy payerKey := by
  obtain ⟨bounds,same⟩ := evaluatePolicy_bounds policy_loads
  refine ⟨?_,same _ (List.reverse_perm _) transfer payerKey⟩
  cases accepted : evaluatePolicy transfer signPolicy.toSignPolicy payerKey with
  | ok result => exact ((bounds transfer payerKey result accepted).2 "native").1
  | error error =>
    have passes := transfer_accepted
    rw [accepted] at passes
    cases passes

end Sample

end RatifyOs.Signer
