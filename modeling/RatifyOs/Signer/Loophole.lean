import RatifyOs.Signer.Fees

/-! What an operator gives up who declares an instruction of the ComputeBudget program as one
that moves no fee: a policy with that rule, whatever its ceilings, has none. -/
namespace RatifyOs.Signer
open Data Data.Result
open Autonomy.Encoding (Document)

section Written
variable {decode : String → Option Bytes}

def AmountEncoding.text : AmountEncoding → String
  | u64le => "u64le"
  | u32le => "u32le"

def SignerSpendRule.json (spend : SignerSpendRule) : Json :=
  .obj ([("asset",.str spend.asset),("amountOffset",.num spend.amountOffset),("amountEncoding",.str spend.amountEncoding.text)] ++
    spend.mintAccountIndex.toList.map fun i => ("mintAccountIndex",.num i))

/-- How an operator writes the rule. -/
def SignerProgramRule.json (rule : SignerProgramRule) : Json :=
  .obj ([("programId",.str rule.programId),("discriminator",.str rule.discriminator)] ++
    match rule.effect with
    | .none => [("effect",.str "none")]
    | .fee => [("effect",.str "fee")]
    | .spend spend => [("effect",.str "spend"),("spend",spend.json)])

theorem parseCount_num {n max : ℕ} (label : String) (within : n ≤ max) :
    parseCount (some (.num n)) label max = .ok n := by
  have bounds : ((n : ℚ)).den = 1 ∧ 0 ≤ (n : ℚ) ∧ (n : ℚ) ≤ max := ⟨rfl,by positivity,by exact_mod_cast within⟩
  rw [parseCount,if_pos bounds]
  rfl

theorem ofJson_nat {n : ℕ} (safe : n ≤ 9007199254740991) : ofJson (.num n) = some (.num n) := by
  rw [ofJson,if_pos (show Execution.SafeInteger n from safe)]
  rfl

theorem ofFields_cons {key : String} {v : Json} {x : Document} {fields : List (String × Json)}
    {xs : List (String × Document)} (first : ofJson v = some x) (rest : ofFields fields = some xs) :
    ofFields ((key,v) :: fields) = some ((key,x) :: xs) := by
  simp [ofFields,first,rest]

theorem ofJson_obj {fields : List (String × Json)} {xs : List (String × Document)} (read : ofFields fields = some xs) :
    ofJson (.obj fields) = some (.obj xs) := by
  rw [ofJson,read,Option.map_some]

theorem parseSpend_json {spend : SignerSpendRule} (asset : spend.asset = NATIVE_ASSET ∨ isPublicKey decode spend.asset = true)
    (offset : spend.amountOffset ≤ 1024) (mint : ∀ i ∈ spend.mintAccountIndex, i ≤ 255 ∧ spend.asset ≠ NATIVE_ASSET) :
    ∃ x, ofJson spend.json = some x ∧ Execution.Distinct spend.json ∧ parseSpend decode (some x) = .ok spend := by
  obtain ⟨a,o,e,m⟩ := spend
  have known : (some a).filter (fun asset => asset = NATIVE_ASSET ∨ isPublicKey decode asset = true) = some a :=
    Option.filter_eq_some_iff.mpr ⟨rfl,decide_eq_true asset⟩
  have encoded : parseSpend.encodingOf (some e.text) = some e := by cases e <;> rfl
  have written : ofJson (.num (o : ℤ)) = some (.num o) := ofJson_nat (offset.trans (by decide))
  cases m with
  | none =>
    refine ⟨_,ofJson_obj (ofFields_cons rfl (ofFields_cons written (ofFields_cons rfl rfl))),?_,?_⟩
    · simp [SignerSpendRule.json,Execution.Distinct,Execution.DistinctFields]
    · simp only [parseSpend,bind_eq_ok,required_eq_ok,reject_eq_ok,pure_eq_ok]
      exact ⟨_,rfl,a,known,e,encoded,o,parseCount_num "spend" offset,none,rfl,(),by simp,rfl⟩
  | some i =>
    obtain ⟨small,foreign⟩ := mint i rfl
    have written' : ofJson (.num (i : ℤ)) = some (.num i) := ofJson_nat (small.trans (by decide))
    refine ⟨_,ofJson_obj (ofFields_cons rfl (ofFields_cons written (ofFields_cons rfl (ofFields_cons written' rfl)))),?_,?_⟩
    · simp [SignerSpendRule.json,Execution.Distinct,Execution.DistinctFields]
    · simp only [parseSpend,bind_eq_ok,required_eq_ok,reject_eq_ok,pure_eq_ok]
      refine ⟨_,rfl,a,known,e,encoded,o,parseCount_num "spend" offset,some i,?_,(),fun both => foreign both.2,rfl⟩
      change optionalCount (some (.num (i : ℚ))) "spend" 255 = .ok (some i)
      rw [optionalCount,parseCount_num "spend" small]
      rfl

theorem parseProgramRule_json {rule : SignerProgramRule} (valid : rule.Valid decode) :
    ∃ x, ofJson rule.json = some x ∧ Execution.Distinct rule.json ∧ parseProgramRule decode x = .ok rule := by
  obtain ⟨p,d,effect⟩ := rule
  obtain ⟨program,hex,short,fee,spend⟩ := valid
  have key : publicKeyOf decode (.str p) = some p := Option.filter_eq_some_iff.mpr ⟨rfl,program⟩
  have text : (some d).filter (fun d => hexPrefix d.toList ∧ d.length ≤ 32) = some d :=
    Option.filter_eq_some_iff.mpr ⟨rfl,decide_eq_true ⟨hex,short⟩⟩
  cases effect with
  | none =>
    refine ⟨_,ofJson_obj (ofFields_cons rfl (ofFields_cons rfl (ofFields_cons rfl rfl))),?_,?_⟩
    · simp [SignerProgramRule.json,Execution.Distinct,Execution.DistinctFields]
    · simp only [parseProgramRule,bind_eq_ok,required_eq_ok]
      exact ⟨p,key,d,text,"none",rfl,rfl⟩
  | fee =>
    obtain ⟨about,tag⟩ := fee rfl
    refine ⟨_,ofJson_obj (ofFields_cons rfl (ofFields_cons rfl (ofFields_cons rfl rfl))),?_,?_⟩
    · simp [SignerProgramRule.json,Execution.Distinct,Execution.DistinctFields]
    · simp only [parseProgramRule,bind_eq_ok,required_eq_ok]
      refine ⟨p,key,d,text,"fee",rfl,?_⟩
      rw [if_neg (by decide),if_pos rfl]
      simp only [bind_eq_ok,reject_eq_ok,pure_eq_ok]
      exact ⟨(),not_not.mpr about,(),by rw [not_and_or,not_not,not_not]; exact tag,trivial⟩
  | spend s =>
    obtain ⟨asset,offset,mint⟩ := spend s rfl
    obtain ⟨x,written,distinct,parsed⟩ := parseSpend_json asset offset mint
    refine ⟨_,ofJson_obj (ofFields_cons rfl (ofFields_cons rfl (ofFields_cons rfl (ofFields_cons written rfl)))),?_,?_⟩
    · simp [SignerProgramRule.json,Execution.Distinct,Execution.DistinctFields,distinct]
    · simp only [parseProgramRule,bind_eq_ok,required_eq_ok]
      refine ⟨p,key,d,text,"spend",rfl,?_⟩
      rw [if_neg (by decide),if_neg (by decide)]
      simp only [bind_eq_ok,reject_eq_ok,pure_eq_ok]
      exact ⟨(),by simp,s,parsed,rfl⟩

theorem parseProgramRules_json {rules : List SignerProgramRule} (valid : ∀ rule ∈ rules, rule.Valid decode) :
    ∃ xs, ofItems (rules.map SignerProgramRule.json) = some xs ∧
      Execution.DistinctItems (rules.map SignerProgramRule.json) ∧ xs.mapM (parseProgramRule decode) = .ok rules := by
  induction rules with
  | nil => exact ⟨[],rfl,trivial,rfl⟩
  | cons rule rules ih =>
    obtain ⟨first,others⟩ := List.forall_mem_cons.mp valid
    obtain ⟨x,written,distinct,parsed⟩ := parseProgramRule_json first
    obtain ⟨xs,written',distinct',parsed'⟩ := ih others
    refine ⟨x :: xs,by simp [ofItems,written,written'],⟨distinct,distinct'⟩,?_⟩
    simp only [List.mapM_cons,bind_eq_ok,pure_eq_ok]
    exact ⟨rule,parsed,rules,parsed',rfl⟩

/-- The ceilings are zero, and the one asset that is capped has a high cap. -/
def openJson (rules : List SignerProgramRule) (asset : Option String) : Json := .obj [
  ("version",.num (1 : ℕ)),
  ("cluster",.str "mainnet-beta"),
  ("feePayers",.arr [.str COMPUTE_BUDGET_PROGRAM_ID]),
  ("programs",.arr (rules.map SignerProgramRule.json)),
  ("caps",.obj (asset.toList.map fun asset => (asset,.str "1000000000000000000000000"))),
  ("maxInstructions",.num (64 : ℕ)),
  ("maxAccountKeys",.num (256 : ℕ)),
  ("maxRequiredSignatures",.num (8 : ℕ)),
  ("maxComputeUnitLimit",.num (1400000 : ℕ)),
  ("maxComputeUnitPriceMicroLamports",.str "0"),
  ("maxPriorityFeeLamports",.str "0"),
  ("addressLookupTables",.arr [])]

def openPolicy (rules : List SignerProgramRule) (asset : Option String) (hash : String) : LoadedSignPolicy where
  version := 1
  cluster := "mainnet-beta"
  feePayers := [COMPUTE_BUDGET_PROGRAM_ID]
  programs := rules
  caps := asset.toList.map fun asset => (asset,1000000000000000000000000)
  maxInstructions := 64
  maxAccountKeys := 256
  maxRequiredSignatures := 8
  maxComputeUnitLimit := 1400000
  maxComputeUnitPriceMicroLamports := 0
  maxPriorityFeeLamports := 0
  maxPriorityFeeBps := none
  addressLookupTables := []
  hash := hash

theorem openPolicy_loads {sha256 : Text → String} {rules : List SignerProgramRule} (valid : ∀ rule ∈ rules, rule.Valid decode)
    (apart : (rules.map SignerProgramRule.key).Nodup) (some_ : rules ≠ [])
    (key : isPublicKey decode COMPUTE_BUDGET_PROGRAM_ID = true) {asset : Option String}
    (known : ∀ a ∈ asset, a = NATIVE_ASSET ∨ isPublicKey decode a = true) :
    ∃ file hash, loadSignPolicy decode sha256 file = .ok (openPolicy rules asset hash) := by
  obtain ⟨xs,written,distinct,parsed⟩ := parseProgramRules_json valid
  have distinct' : Execution.Distinct (openJson rules asset) := by
    cases asset <;> simp [openJson,Execution.Distinct,Execution.DistinctFields,Execution.DistinctItems,distinct]
  have programs : ofJson (.arr (rules.map SignerProgramRule.json)) = some (.arr xs) := by rw [ofJson,written,Option.map_some]
  let capped : List (String × Document) := asset.toList.map fun asset => (asset,.str "1000000000000000000000000")
  have caps : ofFields (asset.toList.map fun asset => (asset,.str "1000000000000000000000000")) = some capped := by
    cases asset <;> rfl
  have counted {n : ℕ} (safe : n ≤ 9007199254740991) := ofJson_nat safe
  have document : ofJson (openJson rules asset) = some _ := ofJson_obj (ofFields_cons (counted (by decide)) (ofFields_cons rfl
    (ofFields_cons rfl (ofFields_cons programs (ofFields_cons (ofJson_obj caps) (ofFields_cons (counted (by decide))
    (ofFields_cons (counted (by decide)) (ofFields_cons (counted (by decide)) (ofFields_cons (counted (by decide))
    (ofFields_cons rfl (ofFields_cons rfl (ofFields_cons rfl rfl))))))))))))
  have payer : publicKeyOf decode (.str COMPUTE_BUDGET_PROGRAM_ID) = some COMPUTE_BUDGET_PROGRAM_ID :=
    Option.filter_eq_some_iff.mpr ⟨rfl,key⟩
  have read : capped.mapM (parseCap decode) = .ok (asset.toList.map fun asset => (asset,1000000000000000000000000)) := by
    cases asset with
    | none => rfl
    | some a =>
      have unsigned : parseUnsigned (some (.str "1000000000000000000000000")) "cap" = .ok 1000000000000000000000000 := by decide +kernel
      have cap : parseCap decode (a,.str "1000000000000000000000000") = .ok (a,1000000000000000000000000) := by
        simp only [parseCap,bind_eq_ok,reject_eq_ok,pure_eq_ok]
        refine ⟨(),fun foreign => ?_,_,unsigned,rfl⟩
        obtain native | listed := known a rfl
        · exact foreign.1 native
        · rw [listed] at foreign
          cases foreign.2
      simp only [capped,Option.toList_some,List.map_cons,List.map_nil,List.mapM_cons,List.mapM_nil,bind_eq_ok,pure_eq_ok]
      exact ⟨_,cap,[],rfl,rfl⟩
  refine ⟨.written (openJson rules asset) distinct',"0x" ++ sha256 (Execution.stringify (openJson rules asset)),?_⟩
  simp only [loadSignPolicy,bind_eq_ok,reject_eq_ok,required_eq_ok,pure_eq_ok]
  refine ⟨(),?_,(),?_,(),?_,_,document,(),?_,
    ⟨"mainnet-beta",[COMPUTE_BUDGET_PROGRAM_ID],xs,capped,[]⟩,?_,rules,parsed,(),not_not.mpr apart,_,read,
    64,?_,256,?_,8,?_,1400000,?_,0,rfl,0,rfl,none,rfl,rfl⟩
  · exact Bool.false_ne_true
  · exact Bool.false_ne_true.symm
  · exact Bool.false_ne_true
  · exact Bool.false_ne_true
  · simp only [policyFormat,Option.bind_eq_bind,Option.bind_eq_some_iff]
    have empty : xs ≠ [] := by
      rintro rfl
      cases parsed
      exact some_ rfl
    refine ⟨.num (1 : ℕ),rfl,"mainnet-beta",rfl,[.str COMPUTE_BUDGET_PROGRAM_ID],rfl,[COMPUTE_BUDGET_PROGRAM_ID],?_,xs,rfl,
      capped,rfl,[],rfl,[],rfl,?_⟩
    · simp [payer]
    · rw [if_pos ⟨by decide,by simp,empty⟩]
      rfl
  · exact parseCount_num _ (by decide)
  · exact parseCount_num _ (by decide)
  · exact parseCount_num _ (by decide)
  · exact parseCount_num _ (by decide)

end Written

section Twice
variable {rules : List SignerProgramRule}

theorem littleEndian_lt (bytes : Bytes) : littleEndian bytes < 256 ^ bytes.length := by
  induction bytes with
  | nil => decide
  | cons b bytes ih =>
    have small := b.toNat_lt
    rw [littleEndian,List.foldr_cons,List.length_cons,Nat.pow_succ]
    change b.toNat + 256 * littleEndian bytes < _
    omega

/-- A transaction with the same instruction twice. -/
def twice (ix : DecodedInstruction) : DecodedTransaction where
  version := none
  feePayer := COMPUTE_BUDGET_PROGRAM_ID
  recentBlockhash := ""
  numRequiredSignatures := 1
  staticAccountKeys := [COMPUTE_BUDGET_PROGRAM_ID]
  signatures := [none]
  addressTableLookups := []
  instructions := [ix,ix]
  messageBytes := []
  messageBase64 := ""
  messageHash := ""
  wireBase64 := ""
  transaction := ⟨[],⟨none,1,[],"",[],[]⟩⟩

def SignerProgramRule.asset (rule : SignerProgramRule) : Option String :=
  match rule.effect with
  | .spend spend => some spend.asset
  | _ => none

def Gathered.spending (so : Gathered) (asset : Option String) (amount : ℕ) : Gathered :=
  { so with spend := match asset with | some asset => amounts.add so.spend (asset,amount) | none => so.spend }

/-- An instruction on the rule, long enough for every offset and with every account the mint. -/
def onRule (rule : SignerProgramRule) (d : Bytes) : DecodedInstruction where
  programId := rule.programId
  programIdIndex := 0
  accountIndexes := List.replicate 256 0
  accounts := List.replicate 256 rule.asset
  data := d ++ List.replicate 1032 0
  dataHex := Bytes.toHex (d ++ List.replicate 1032 0)

theorem gather_onRule {decode : String → Option Bytes} (apart : (rules.map SignerProgramRule.key).Nodup)
    {rule : SignerProgramRule} (valid : rule.Valid decode) {d : Bytes}
    (specific : Specific rules (onRule rule d).programId (onRule rule d).dataHex rule) (free : rule.effect ≠ .fee)
    (so : Gathered) : ∃ amount < 18446744073709551616,
      gather rules so (onRule rule d) = .ok (so.spending rule.asset amount) := by
  have found := (matchRule_eq_some_iff apart).mpr specific
  have allowed : (matchRule rules (onRule rule d).programId (onRule rule d).dataHex).2 = true := by
    rw [(matchRule_found _ _ _).2,List.any_eq_true]
    exact ⟨rule,specific.1,decide_eq_true rfl⟩
  have passed {so' : Gathered} (effect : (match rule.effect with
      | .none => return so
      | .fee => return so
      | .spend spend => do
        checkMint spend (onRule rule d).accounts
        let amount ← readAmount (onRule rule d).data spend.amountOffset spend.amountEncoding
        return { so with spend := amounts.add so.spend (spend.asset,amount) }) = Except.ok so') :
      gather rules so (onRule rule d) = .ok so' := by
    simp only [gather,bind_eq_ok,reject_eq_ok,required_eq_ok]
    refine ⟨(),by simp [allowed],rule,found,?_⟩
    cases case_ : rule.effect with
    | none => simpa only [case_] using effect
    | fee => exact absurd case_ free
    | spend spend => simpa only [case_] using effect
  cases case_ : rule.effect with
  | fee => exact absurd case_ free
  | none =>
    refine ⟨0,by decide,passed ?_⟩
    simp only [case_,SignerProgramRule.asset,Gathered.spending,pure_eq_ok]
  | spend spend =>
    obtain ⟨_,offset,mint⟩ := valid.spend spend case_
    have long : spend.amountOffset + spend.amountEncoding.width ≤ (onRule rule d).data.length := by
      have width : spend.amountEncoding.width ≤ 8 := by cases spend.amountEncoding <;> decide
      rw [onRule,List.length_append,List.length_replicate]
      omega
    refine ⟨littleEndian (((onRule rule d).data.drop spend.amountOffset).take spend.amountEncoding.width),?_,passed ?_⟩
    · refine (littleEndian_lt _).trans_le ?_
      have short : (((onRule rule d).data.drop spend.amountOffset).take spend.amountEncoding.width).length ≤ 8 := by
        rw [List.length_take]
        exact (min_le_left _ _).trans (by cases spend.amountEncoding <;> decide)
      exact Nat.pow_le_pow_right (by decide) short
    · simp only [case_,SignerProgramRule.asset,Gathered.spending,bind_eq_ok,pure_eq_ok]
      refine ⟨(),?_,_,readAmount_eq_ok.mpr ⟨long,rfl⟩,rfl⟩
      unfold checkMint
      cases pinned : spend.mintAccountIndex with
      | none => rfl
      | some i =>
        obtain ⟨small,_⟩ := mint i pinned
        simp only [bind_eq_ok,required_eq_ok,reject_eq_ok]
        refine ⟨some spend.asset,?_,not_not.mpr rfl⟩
        rw [onRule,List.getElem?_replicate,if_pos (by omega),SignerProgramRule.asset,case_]

theorem capped_twice {a : String} {m n : ℕ} (first : m < 18446744073709551616) (second : n < 18446744073709551616) :
    (amounts.add (amounts.add .empty (a,m)) (a,n)).rows.forM (checkCap [(a,1000000000000000000000000)]) = .ok () := by
  have small : ∀ x ∈ (amounts.add (amounts.add .empty (a,m)) (a,n)).rows, x.1 = a ∧ x.2 ≤ 36893488147419103232 := by
    intro x inside
    have once : ∀ y ∈ (amounts.add .empty (a,m)).rows, y = (a,m) := by
      intro y there
      obtain old | rfl | ⟨_,old,_⟩ := amounts.mem_add there
      · cases old
      · rfl
      · cases old
    obtain old | rfl | ⟨prior,old,rfl⟩ := amounts.mem_add inside
    · rw [once x old]
      exact ⟨rfl,by omega⟩
    · exact ⟨rfl,by omega⟩
    · rw [once prior old]
      exact ⟨rfl,show m + n ≤ _ by omega⟩
  refine forM_eq_ok.mpr fun x inside => ?_
  obtain ⟨asset,total⟩ := small x inside
  simp only [checkCap,bind_eq_ok,required_eq_ok,reject_eq_ok,not_lt]
  refine ⟨1000000000000000000000000,?_,by omega⟩
  rw [asset,List.lookup_cons_self]

theorem priorityFee_free (limit : ℕ) : priorityFee limit 0 = 0 := by
  rw [priorityFee,Nat.mul_zero]

theorem twice_accepted {decode : String → Option Bytes} (apart : (rules.map SignerProgramRule.key).Nodup)
    {rule : SignerProgramRule} (valid : rule.Valid decode) {d : Bytes}
    (specific : Specific rules (onRule rule d).programId (onRule rule d).dataHex rule) (free : rule.effect ≠ .fee)
    (hash : String) : ∃ result, evaluatePolicy (twice (onRule rule d)) (openPolicy rules rule.asset hash).toSignPolicy
      COMPUTE_BUDGET_PROGRAM_ID = .ok result := by
  obtain ⟨m,first,once⟩ := gather_onRule apart valid specific free ⟨.empty,none,none⟩
  let start : Gathered := ⟨.empty,none,none⟩
  obtain ⟨n,second,again⟩ := gather_onRule apart valid specific free (start.spending rule.asset m)
  have gathered : (twice (onRule rule d)).instructions.foldlM (gather rules) start =
      .ok ((start.spending rule.asset m).spending rule.asset n) := by
    simp only [twice,List.foldlM_cons,List.foldlM_nil,bind_eq_ok,pure_eq_ok]
    exact ⟨_,once,_,again,rfl⟩
  simp only [evaluatePolicy,bind_eq_ok,reject_eq_ok,pure_eq_ok]
  refine ⟨_,(),?_,(),?_,(),?_,(),?_,(),?_,_,gathered,(),?_,(),?_,(),?_,(),?_,(),?_,rfl⟩
  · simp [twice,openPolicy]
  · simp [twice,openPolicy]
  · simp [twice,openPolicy]
  · simp [twice,openPolicy]
  · simp [twice]
  · simp [start,Gathered.spending,twice,openPolicy,defaultLimit,DEFAULT_UNITS_PER_INSTRUCTION,MAX_UNITS_PER_TRANSACTION]
  · simp [start,Gathered.spending,openPolicy]
  · exact not_lt.mpr (priorityFee_free _).le
  · simp [openPolicy]
  · cases rule.asset with
    | none => rfl
    | some a => exact capped_twice first second

theorem twice_decoded {rule : SignerProgramRule} {d : Bytes} : Decoded (twice (onRule rule d)) := by
  intro ix inside
  obtain rfl : ix = onRule rule d := by simpa [twice] using inside
  rfl

theorem twice_unbounded {rule : SignerProgramRule} (about : rule.programId = COMPUTE_BUDGET_PROGRAM_ID) {d : Bytes}
    (some_ : d ≠ []) (tag : d.head? = some 2 ∨ d.head? = some 3) {policy : SignPolicy} :
    ¬Bounded policy (twice (onRule rule d)) := by
  intro bounded
  have head : (onRule rule d).data.head? = d.head? := List.head?_append_of_ne_nil d some_
  have long : 1032 ≤ (onRule rule d).data.length := by
    rw [onRule,List.length_append,List.length_replicate]
    omega
  have twofold {tag : UInt8} {encoding : AmountEncoding} (same : d.head? = some tag) :
      ((twice (onRule rule d)).instructions.filterMap (setting tag encoding)).length = 2 := by
    have width : encoding.width ≤ 8 := by cases encoding <;> decide
    have set : setting tag encoding (onRule rule d) =
        some (littleEndian (((onRule rule d).data.drop 1).take encoding.width)) :=
      if_pos ⟨about,head.trans same,by omega⟩
    simp [twice,set]
  obtain limit | price := tag
  · have two : (unitLimits (twice (onRule rule d))).length = 2 := twofold limit
    have one := bounded.limits
    omega
  · have two : (unitPrices (twice (onRule rule d))).length = 2 := twofold price
    have one := bounded.prices
    omega

end Twice

theorem fees_bounded_iff {decode : String → Option Bytes} {sha256 : Text → String} {file : PolicyFile}
    {policy : LoadedSignPolicy} (loaded : loadSignPolicy decode sha256 file = .ok policy) :
    (∀ file' policy', loadSignPolicy decode sha256 file' = .ok policy' → policy'.programs = policy.programs →
      ∀ decoded payer result, Decoded decoded → evaluatePolicy decoded policy'.toSignPolicy payer = .ok result →
        Bounded policy'.toSignPolicy decoded) ↔
      ∀ rule ∈ policy.programs, rule.MovesFee → rule.effect = .fee := by
  have valid := loadSignPolicy_valid loaded
  have apart := loadSignPolicy_apart loaded
  constructor
  · intro bounded rule there moves
    by_contra free
    obtain ⟨d,some_,text⟩ := (valid rule there).bytes
    -- the rule that the loop finds is not the fee rule either: that one has the shortest discriminator
    have hit : rule.Matches COMPUTE_BUDGET_PROGRAM_ID (Bytes.toHex (d ++ List.replicate 1032 0)) :=
      ⟨moves.1,by rw [← text,Bytes.toHex_prefix_iff]; exact List.prefix_append _ _⟩
    have found := (matchRule_found policy.programs COMPUTE_BUDGET_PROGRAM_ID (Bytes.toHex (d ++ List.replicate 1032 0))).1
    cases best : (matchRule policy.programs COMPUTE_BUDGET_PROGRAM_ID (Bytes.toHex (d ++ List.replicate 1032 0))).1 with
    | none =>
      rw [best] at found
      exact found rule there hit
    | some b =>
      rw [best] at found
      have specific : Specific policy.programs COMPUTE_BUDGET_PROGRAM_ID (Bytes.toHex (d ++ List.replicate 1032 0)) b := found
      have about : b.programId = COMPUTE_BUDGET_PROGRAM_ID := specific.2.1.1
      have free' : b.effect ≠ .fee := by
        intro fee
        have length : b.discriminator.length = 2 := by
          obtain ⟨_,tag | tag⟩ := (valid b specific.1).fee fee <;> rw [tag] <;> rfl
        have least : 2 ≤ rule.discriminator.length := by
          rw [← String.length_toList,← text,Bytes.length_toHex]
          have := List.length_pos_of_ne_nil some_
          omega
        have specific' : Specific policy.programs COMPUTE_BUDGET_PROGRAM_ID (Bytes.toHex (d ++ List.replicate 1032 0)) rule :=
          ⟨there,hit,fun other inside same => (specific.2.2 other inside same).trans (length.trans_le least)⟩
        exact free (specific.unique apart specific' ▸ fee)
      rw [← about] at specific
      have known : ∀ a ∈ b.asset, a = NATIVE_ASSET ∨ isPublicKey decode a = true := by
        intro a spent
        unfold SignerProgramRule.asset at spent
        split at spent
        · rename_i spend effect
          obtain rfl : spend.asset = a := Option.some.inj spent
          exact ((valid b specific.1).spend spend effect).1
        · cases spent
      have opens : ∃ file hash, loadSignPolicy decode sha256 file = .ok (openPolicy policy.programs b.asset hash) :=
        openPolicy_loads valid apart (List.ne_nil_of_mem there) (moves.1 ▸ (valid rule there).program) known
      obtain ⟨file',hash,loaded'⟩ := opens
      obtain ⟨result,accepted⟩ := twice_accepted apart (valid b specific.1) (d := d) specific free' hash
      have within := bounded file' _ loaded' rfl (twice (onRule b d)) _ result twice_decoded accepted
      exact twice_unbounded about some_ (by
        obtain ⟨_,tag | tag⟩ := moves
        · rw [← text,limit_tag] at tag
          exact .inl tag
        · rw [← text,price_tag] at tag
          exact .inr tag) within
  · intro covered file' policy' loaded' same decoded payer result hex accepted
    have apart' := loadSignPolicy_apart loaded'
    rw [← same] at covered
    exact bounded_of_covered apart' covered (loadSignPolicy_valid loaded') hex accepted

namespace Sample

/-- One rule, by which the price of a compute unit moves nothing. -/
def freeJson : Json := policyJsonOf
  [.obj [("programId",.str COMPUTE_BUDGET_PROGRAM_ID),("discriminator",.str "03"),("effect",.str "none")]] []

def freeFile : PolicyFile := .written freeJson (by
  simp [freeJson,policyJsonOf,Execution.Distinct,Execution.DistinctItems,Execution.DistinctFields])

def freeSha256 (text : Text) : String :=
  if text = Execution.stringify freeJson then "6951aa42993b03533e6763d9520b6dccf47d8d5b90cd4d66b3d34adea55c15a2" else ""

def freePolicy : LoadedSignPolicy := { signPolicy with
  programs := [⟨COMPUTE_BUDGET_PROGRAM_ID,"03",.none⟩]
  caps := []
  hash := "0x6951aa42993b03533e6763d9520b6dccf47d8d5b90cd4d66b3d34adea55c15a2" }

/-- A million micro-lamports for each unit. -/
def priceData : Bytes := [3,64,66,15,0,0,0,0,0]

def priced : DecodedTransaction := { transfer with
  staticAccountKeys := [payerKey,COMPUTE_BUDGET_PROGRAM_ID]
  instructions := [⟨COMPUTE_BUDGET_PROGRAM_ID,1,[],[],priceData,"0340420f0000000000"⟩]
  transaction := ⟨[List.replicate 64 0],{ message 1 with
    staticAccountKeys := [payer,computeBudget], compiledInstructions := [⟨1,[],priceData⟩] }⟩ }

end Sample

open Sample in
theorem ceiling_bypassed : loadSignPolicy decode freeSha256 freeFile = .ok freePolicy ∧ Decoded priced ∧
    (evaluatePolicy priced freePolicy.toSignPolicy payerKey).isOk = true ∧ ¬Bounded freePolicy.toSignPolicy priced := by
  refine ⟨by decide +kernel,?_,by decide +kernel,fun bounded => ?_⟩
  · intro ix inside
    obtain rfl : ix = _ := List.mem_singleton.mp inside
    decide +kernel
  · have least := bounded.price 1000000 (by decide +kernel)
    exact absurd least (by decide)

open Sample in
theorem transfer_fees_bounded : Bounded signPolicy.toSignPolicy transfer := by
  have covered : ∀ rule ∈ signPolicy.programs, rule.MovesFee → rule.effect = .fee := by
    intro rule inside moves
    obtain rfl | rfl : rule = ⟨COMPUTE_BUDGET_PROGRAM_ID,"02",.fee⟩ ∨ rule = ⟨systemKey,"02000000",.spend ⟨"native",4,.u64le,none⟩⟩ := by
      simpa [signPolicy] using inside
    · rfl
    · exact absurd moves.1 (by decide)
  have hex : Decoded transfer := by
    intro ix inside
    obtain rfl : ix = _ := List.mem_singleton.mp inside
    decide +kernel
  cases accepted : evaluatePolicy transfer signPolicy.toSignPolicy payerKey with
  | ok result => exact (fees_bounded_iff policy_loads).mpr covered policyFile signPolicy policy_loads rfl transfer payerKey result hex accepted
  | error error =>
    have passes := transfer_accepted
    rw [accepted] at passes
    cases passes

end RatifyOs.Signer
