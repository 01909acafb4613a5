import Mathlib.Algebra.Order.Ring.Rat
import RatifyOs.Signer.Spending

/-! The ceilings on the priority fee: the cluster takes the fee from the instructions of the
ComputeBudget program, the policy from those its rules call `fee`. -/
namespace RatifyOs.Signer
open Data Data.Result
open Autonomy.Encoding (Document)

section Cluster

/-- What the cluster reads in a ComputeBudget instruction with this tag. -/
def setting (tag : UInt8) (encoding : AmountEncoding) (ix : DecodedInstruction) : Option ℕ :=
  if ix.programId = COMPUTE_BUDGET_PROGRAM_ID ∧ ix.data.head? = some tag ∧ 1 + encoding.width ≤ ix.data.length then
    some (littleEndian ((ix.data.drop 1).take encoding.width))
  else none

def unitLimits (decoded : DecodedTransaction) : List ℕ := decoded.instructions.filterMap (setting 2 .u32le)

def unitPrices (decoded : DecodedTransaction) : List ℕ := decoded.instructions.filterMap (setting 3 .u64le)

def clusterFee (decoded : DecodedTransaction) : ℕ :=
  priorityFee ((unitLimits decoded).head?.getD (defaultLimit decoded.instructions.length)) ((unitPrices decoded).head?.getD 0)

structure Bounded (policy : SignPolicy) (decoded : DecodedTransaction) : Prop where
  limits : (unitLimits decoded).length ≤ 1
  prices : (unitPrices decoded).length ≤ 1
  limit : ∀ limit ∈ unitLimits decoded, limit ≤ policy.maxComputeUnitLimit
  price : ∀ price ∈ unitPrices decoded, price ≤ policy.maxComputeUnitPriceMicroLamports
  fee : clusterFee decoded ≤ policy.maxPriorityFeeLamports
  leg : ∀ bps ∈ policy.maxPriorityFeeBps,
    let leg := (decoded.instructions.map (leaving policy.programs NATIVE_ASSET)).sum
    0 < leg → clusterFee decoded * 10000 ≤ leg * bps

/-- The text that rules are matched against is that of the bytes. -/
def Decoded (decoded : DecodedTransaction) : Prop := ∀ ix ∈ decoded.instructions, ix.dataHex = ix.data.toHex

/-- The rule is about an instruction that moves the fee, or about some of them. -/
def SignerProgramRule.MovesFee (rule : SignerProgramRule) : Prop :=
  rule.programId = COMPUTE_BUDGET_PROGRAM_ID ∧
    (SET_UNIT_LIMIT.toList <+: rule.discriminator.toList ∨ SET_UNIT_PRICE.toList <+: rule.discriminator.toList)

end Cluster

section Rules

/-- What the loader has checked about a rule. -/
structure SignerProgramRule.Valid (decode : String → Option Bytes) (rule : SignerProgramRule) : Prop where
  program : isPublicKey decode rule.programId = true
  hex : hexPrefix rule.discriminator.toList = true
  short : rule.discriminator.length ≤ 32
  fee : rule.effect = .fee → rule.programId = COMPUTE_BUDGET_PROGRAM_ID ∧
    (rule.discriminator = SET_UNIT_LIMIT ∨ rule.discriminator = SET_UNIT_PRICE)
  spend : ∀ spend, rule.effect = .spend spend → (spend.asset = NATIVE_ASSET ∨ isPublicKey decode spend.asset = true) ∧
    spend.amountOffset ≤ 1024 ∧ ∀ i ∈ spend.mintAccountIndex, i ≤ 255 ∧ spend.asset ≠ NATIVE_ASSET

theorem decodeTransaction_decoded {web3 : Web3} {wire : String} {decoded : DecodedTransaction}
    (ok : decodeTransaction web3 wire = .ok decoded) : Decoded decoded := by
  simp only [decodeTransaction,bind_eq_ok,reject_eq_ok,required_eq_ok,pure_eq_ok] at ok
  obtain ⟨_,_,_,_,_,_,_,_,_,_,_,_,_,_,_,_,_,_,instructions,read,rfl⟩ := ok
  intro ix inside
  obtain ⟨compiled,_,made⟩ := mem_of_mapM read ix inside
  simp only [decodeInstruction,bind_eq_ok,required_eq_ok,pure_eq_ok] at made
  obtain ⟨_,_,_,_,rfl⟩ := made
  rfl

theorem parseCount_le {value : Option Document} {label : String} {max n : ℕ} (read : parseCount value label max = .ok n) :
    n ≤ max := by
  unfold parseCount at read
  split at read
  · rename_i q
    split_ifs at read with bounds
    · obtain ⟨whole,least,most⟩ := bounds
      rw [← Rat.coe_int_num_of_den_eq_one whole] at least most
      cases read
      have below : q.num ≤ (max : ℤ) := by exact_mod_cast most
      exact Int.toNat_le.mpr below
  · simp at read

theorem parseSpend_valid {decode : String → Option Bytes} {s : Option Document} {spend : SignerSpendRule}
    (parsed : parseSpend decode s = .ok spend) : (spend.asset = NATIVE_ASSET ∨ isPublicKey decode spend.asset = true) ∧
      spend.amountOffset ≤ 1024 ∧ ∀ i ∈ spend.mintAccountIndex, i ≤ 255 ∧ spend.asset ≠ NATIVE_ASSET := by
  simp only [parseSpend,bind_eq_ok,required_eq_ok,reject_eq_ok,pure_eq_ok,Option.filter_eq_some_iff,decide_eq_true_eq] at parsed
  obtain ⟨s,_,asset,⟨_,known⟩,encoding,_,offset,counted,index,optional,_,pinned,rfl⟩ := parsed
  refine ⟨known,parseCount_le counted,fun i there => ⟨?_,fun native => pinned ⟨Option.isSome_iff_exists.mpr ⟨i,there⟩,native⟩⟩⟩
  obtain rfl : index = some i := there
  unfold optionalCount at optional
  split at optional
  · cases optional
  · simp only [bind_eq_ok,pure_eq_ok,Option.some.injEq] at optional
    obtain ⟨n,read,rfl⟩ := optional
    exact parseCount_le read

theorem parseProgramRule_valid {decode : String → Option Bytes} {x : Document} {rule : SignerProgramRule}
    (parsed : parseProgramRule decode x = .ok rule) : rule.Valid decode := by
  simp only [parseProgramRule,bind_eq_ok,required_eq_ok,Option.filter_eq_some_iff,decide_eq_true_eq,
    Option.bind_eq_some_iff,publicKeyOf] at parsed
  obtain ⟨programId,⟨_,_,_,key⟩,discriminator,⟨_,hex,short⟩,effect,_,parsed⟩ := parsed
  split_ifs at parsed
  · cases parsed
    exact ⟨key,hex,short,fun fee => (by cases fee),fun _ same => by cases same⟩
  · simp only [bind_eq_ok,reject_eq_ok,pure_eq_ok] at parsed
    obtain ⟨_,program,_,tag,rfl⟩ := parsed
    rw [not_and_or,not_not,not_not] at tag
    exact ⟨key,hex,short,fun _ => ⟨not_not.mp program,tag⟩,fun _ same => by cases same⟩
  · simp only [bind_eq_ok,reject_eq_ok,pure_eq_ok] at parsed
    obtain ⟨_,_,spend,read,rfl⟩ := parsed
    refine ⟨key,hex,short,fun fee => (by cases fee),fun spend' same => ?_⟩
    obtain rfl : spend = spend' := Effect.spend.inj same
    exact parseSpend_valid read

theorem loadSignPolicy_valid {decode : String → Option Bytes} {sha256 : Text → String} {file : PolicyFile}
    {policy : LoadedSignPolicy} (loaded : loadSignPolicy decode sha256 file = .ok policy) :
    ∀ rule ∈ policy.programs, rule.Valid decode := by
  simp only [loadSignPolicy,bind_eq_ok,reject_eq_ok,required_eq_ok,pure_eq_ok] at loaded
  obtain ⟨_,_,_,_,_,_,_,_,_,_,format,_,programs,parsed,_,_,_,_,_,_,_,_,_,_,_,_,_,_,_,_,_,_,rfl⟩ := loaded
  intro rule inside
  obtain ⟨_,_,read⟩ := mem_of_mapM parsed rule inside
  exact parseProgramRule_valid read

end Rules

section Ceiling
variable {decode : String → Option Bytes} {rules : List SignerProgramRule} {ix : DecodedInstruction}

theorem SignerProgramRule.Valid.bytes {rule : SignerProgramRule} (valid : rule.Valid decode) :
    ∃ d : Bytes, d ≠ [] ∧ (Bytes.toHex d).toList = rule.discriminator.toList := by
  have hex := valid.hex
  simp only [hexPrefix,decide_eq_true_eq,List.all_eq_true] at hex
  obtain ⟨some_,even,digits⟩ := hex
  obtain ⟨d,text⟩ := Bytes.exists_toHex even digits
  refine ⟨d,?_,text⟩
  rintro rfl
  exact some_ text.symm

theorem prefix_tag_iff {tag : UInt8} {text : String} (hex : (Bytes.toHex [tag]).toList = text.toList) {d : Bytes} :
    text.toList <+: (Bytes.toHex d).toList ↔ d.head? = some tag := by
  rw [← hex,Bytes.toHex_prefix_iff]
  cases d with
  | nil => simp
  | cons b d => simp [List.cons_prefix_cons,eq_comm]

theorem limit_tag {d : Bytes} : SET_UNIT_LIMIT.toList <+: (Bytes.toHex d).toList ↔ d.head? = some 2 :=
  prefix_tag_iff (by decide)

theorem price_tag {d : Bytes} : SET_UNIT_PRICE.toList <+: (Bytes.toHex d).toList ↔ d.head? = some 3 :=
  prefix_tag_iff (by decide)

theorem movesFee_iff {rule : SignerProgramRule} (valid : rule.Valid decode) (hex : ix.dataHex = ix.data.toHex)
    (matches_ : rule.Matches ix.programId ix.dataHex) : rule.MovesFee ↔
      ix.programId = COMPUTE_BUDGET_PROGRAM_ID ∧ (ix.data.head? = some 2 ∨ ix.data.head? = some 3) := by
  obtain ⟨program,begins⟩ := matches_
  obtain ⟨d,some_,text⟩ := valid.bytes
  rw [hex,← text,Bytes.toHex_prefix_iff] at begins
  have head : ix.data.head? = d.head? := by
    obtain ⟨rest,same⟩ := begins
    rw [← same,List.head?_append_of_ne_nil d some_]
  rw [SignerProgramRule.MovesFee,program,← text,limit_tag,price_tag,head]

theorem gather_settings (covered : ∀ rule ∈ rules, rule.MovesFee → rule.effect = .fee)
    (valid : ∀ rule ∈ rules, rule.Valid decode) (hex : ix.dataHex = ix.data.toHex) {so so' : Gathered}
    (passed : gather rules so ix = .ok so') :
    so'.explicitLimit.toList = so.explicitLimit.toList ++ (setting 2 .u32le ix).toList ∧
      so'.unitPrice.toList = so.unitPrice.toList ++ (setting 3 .u64le ix).toList := by
  obtain ⟨rule,⟨there,matches_,_⟩,case_⟩ := gather_cases passed
  have moves := movesFee_iff (valid rule there) hex matches_
  -- an instruction that the rule does not call a fee is none for the cluster
  have other (free : rule.effect ≠ .fee) : setting 2 .u32le ix = none ∧ setting 3 .u64le ix = none := by
    have rests : ¬(ix.programId = COMPUTE_BUDGET_PROGRAM_ID ∧ (ix.data.head? = some 2 ∨ ix.data.head? = some 3)) :=
      fun moves' => free (covered rule there (moves.mpr moves'))
    exact ⟨if_neg fun set => rests ⟨set.1,.inl set.2.1⟩,if_neg fun set => rests ⟨set.1,.inr set.2.1⟩⟩
  cases effect : rule.effect with
  | none =>
    simp only [effect] at case_
    obtain ⟨first,second⟩ := other (by simp [effect])
    rw [case_,first,second]
    simp
  | spend spend =>
    simp only [effect] at case_
    obtain ⟨_,_,rfl⟩ := case_
    obtain ⟨first,second⟩ := other (by simp [effect])
    rw [first,second]
    simp
  | fee =>
    simp only [effect] at case_
    obtain ⟨program,tag⟩ := (valid rule there).fee effect
    have about : ix.programId = COMPUTE_BUDGET_PROGRAM_ID := matches_.1.symm.trans program
    have begins := matches_.2
    rw [hex] at begins
    obtain ⟨limit,fresh,amount,read,rfl⟩ | ⟨_,price,fresh,amount,read,rfl⟩ | ⟨first,second,_⟩ := case_
    · rw [limit,limit_tag] at begins
      obtain ⟨long,value⟩ := readAmount_eq_ok.mp read
      have here : setting 2 .u32le ix = some amount := by rw [setting,if_pos ⟨about,begins,long⟩,value]
      have there : setting 3 .u64le ix = none := if_neg fun set => by simp [begins] at set
      rw [here,there,fresh]
      simp
    · rw [price,price_tag] at begins
      obtain ⟨long,value⟩ := readAmount_eq_ok.mp read
      have here : setting 3 .u64le ix = some amount := by rw [setting,if_pos ⟨about,begins,long⟩,value]
      have there : setting 2 .u32le ix = none := if_neg fun set => by simp [begins] at set
      rw [here,there,fresh]
      simp
    · exact absurd tag (not_or.mpr ⟨first,second⟩)

theorem gathered_settings (covered : ∀ rule ∈ rules, rule.MovesFee → rule.effect = .fee)
    (valid : ∀ rule ∈ rules, rule.Valid decode) {ixs : List DecodedInstruction} (hex : ∀ ix ∈ ixs, ix.dataHex = ix.data.toHex)
    {so so' : Gathered} (passed : ixs.foldlM (gather rules) so = .ok so') :
    so'.explicitLimit.toList = so.explicitLimit.toList ++ ixs.filterMap (setting 2 .u32le) ∧
      so'.unitPrice.toList = so.unitPrice.toList ++ ixs.filterMap (setting 3 .u64le) := by
  induction ixs generalizing so with
  | nil =>
    cases passed
    simp
  | cons ix ixs ih =>
    simp only [List.foldlM_cons,bind_eq_ok] at passed
    obtain ⟨mid,first,rest⟩ := passed
    obtain ⟨here,others⟩ := List.forall_mem_cons.mp hex
    obtain ⟨limit,price⟩ := gather_settings covered valid here first
    obtain ⟨limits,prices⟩ := ih others rest
    rw [limits,prices,limit,price,List.filterMap_cons,List.filterMap_cons]
    constructor
    · cases setting 2 .u32le ix <;> simp
    · cases setting 3 .u64le ix <;> simp

/-- What the policy computes is what the cluster charges. -/
theorem evaluatePolicy_fee {policy : SignPolicy} (covered : ∀ rule ∈ policy.programs, rule.MovesFee → rule.effect = .fee)
    (valid : ∀ rule ∈ policy.programs, rule.Valid decode) {decoded : DecodedTransaction} (hex : Decoded decoded)
    {payer : String} {result : PolicyEvaluation} (accepted : evaluatePolicy decoded policy payer = .ok result) :
    result.priorityFeeLamports = clusterFee decoded := by
  simp only [evaluatePolicy,bind_eq_ok,reject_eq_ok,pure_eq_ok] at accepted
  obtain ⟨_,_,_,_,_,_,_,_,_,_,so,gathered,_,_,_,_,_,_,_,_,_,_,rfl⟩ := accepted
  obtain ⟨limits,prices⟩ := gathered_settings covered valid hex gathered
  rw [Option.toList_none,List.nil_append] at limits prices
  rw [clusterFee,unitLimits,unitPrices,← limits,← prices]
  cases so.explicitLimit <;> cases so.unitPrice <;> rfl

theorem bounded_of_covered {policy : SignPolicy} (apart : (policy.programs.map SignerProgramRule.key).Nodup)
    (covered : ∀ rule ∈ policy.programs, rule.MovesFee → rule.effect = .fee)
    (valid : ∀ rule ∈ policy.programs, rule.Valid decode) {decoded : DecodedTransaction} (hex : Decoded decoded)
    {payer : String} {result : PolicyEvaluation} (accepted : evaluatePolicy decoded policy payer = .ok result) :
    Bounded policy decoded := by
  simp only [evaluatePolicy,bind_eq_ok,reject_eq_ok,pure_eq_ok] at accepted
  obtain ⟨_,_,_,_,_,_,_,_,_,_,so,gathered,_,limit,_,price,_,fee,_,leg,_,_,_⟩ := accepted
  obtain ⟨limits,prices⟩ := gathered_settings covered valid hex gathered
  rw [Option.toList_none,List.nil_append] at limits prices
  have limits' : unitLimits decoded = so.explicitLimit.toList := limits.symm
  have prices' : unitPrices decoded = so.unitPrice.toList := prices.symm
  have known : clusterFee decoded =
      priorityFee (so.explicitLimit.getD (defaultLimit decoded.instructions.length)) (so.unitPrice.getD 0) := by
    rw [clusterFee,limits',prices']
    cases so.explicitLimit <;> cases so.unitPrice <;> rfl
  refine ⟨?_,?_,fun l inside => ?_,fun p inside => ?_,?_,fun bps there spent => ?_⟩
  · rw [limits']
    cases so.explicitLimit <;> simp
  · rw [prices']
    cases so.unitPrice <;> simp
  · rw [limits',Option.mem_toList] at inside
    rw [show so.explicitLimit = some l from inside,Option.getD_some] at limit
    omega
  · rw [prices',Option.mem_toList] at inside
    rw [show so.unitPrice = some p from inside,Option.getD_some] at price
    omega
  · rw [known]
    omega
  · have total := total_gathered apart gathered NATIVE_ASSET
    rw [amounts.total_empty,Nat.zero_add,amounts.total_eq_find?] at total
    cases found : so.spend.find? NATIVE_ASSET with
    | none =>
      rw [found,Option.map_none,Option.getD_none] at total
      omega
    | some entry =>
      rw [found,Option.map_some,Option.getD_some] at total
      have within : ¬(entry.2 > 0 ∧ _ > entry.2 * bps / 10000) := fun both => leg ⟨bps,there,entry,found,both⟩
      rw [← known] at within
      rw [← total] at spent ⊢
      have least : clusterFee decoded ≤ entry.2 * bps / 10000 := not_lt.mp fun more => within ⟨spent,more⟩
      exact (Nat.le_div_iff_mul_le (by decide)).mp least

end Ceiling

end RatifyOs.Signer
