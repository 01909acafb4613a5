import Mathlib.Algebra.Order.Floor.Semifield
import RatifyOs.Data.Rounding
import RatifyOs.Pools.Instructions

/-! What a built transaction says that it pays, against what the cluster charges for the limit and
the price that it carries. -/
namespace RatifyOs.Pools
open Data Data.Result
open Signer (COMPUTE_BUDGET_PROGRAM_ID decodeTransaction DecodedTransaction DecodedInstruction clusterFee priorityFee littleEndian
  setting unitLimits unitPrices evaluatePolicy)

/-- What `web3.js` documents of the two instructions, and that a transaction decodes to what it was
compiled from. -/
structure Web3Builder.Documented (signer : Signer.Web3) (web3 : Web3Builder) : Prop where
  limit : ∀ units ix, web3.setComputeUnitLimit units = .ok ix →
    units < 2 ^ 32 ∧ ix = ⟨COMPUTE_BUDGET_PROGRAM_ID,[],2 :: littleEndianBytes 4 units⟩
  price : ∀ microLamports ix, web3.setComputeUnitPrice microLamports = .ok ix →
    ∃ n : ℕ, n < 2 ^ 64 ∧ microLamports = .finite n ∧ ix = ⟨COMPUTE_BUDGET_PROGRAM_ID,[],3 :: littleEndianBytes 8 n⟩
  compiled : ∀ payer hash instructions wire decoded, web3.compileV0 payer hash instructions = .ok wire →
    decodeTransaction signer wire = .ok decoded →
      decoded.instructions.map (fun ix => (ix.programId,ix.data)) = instructions.map fun ix => (ix.programId,ix.data)

/-- The two products of the conversion are numbers. -/
structure ExactProducts (fee : ℚ) (limit : ℕ) : Prop where
  scaled : Double.ofRat (fee * 1000000) = .finite (fee * 1000000)
  priced : ∀ price : ℕ, unitPrice (.finite fee) limit = .finite price → Double.ofRat (price * limit) = .finite (price * limit)

/-- The declared fee is the one that the cluster charges and that the signer computes under rules that
say which instructions are fees; no ceiling comes between them. -/
structure Declares (declared : Double) (decoded : DecodedTransaction) : Prop where
  equal : declared = .finite (clusterFee decoded)
  within : ∀ ceiling : ℕ, declared ≤ .finite ceiling → clusterFee decoded ≤ ceiling
  signed : ∀ (decode : String → Option Bytes) (policy : Signer.SignPolicy) (payer : String) (result : Signer.PolicyEvaluation),
    (∀ rule ∈ policy.programs, rule.Valid decode ∧ (rule.MovesFee → rule.effect = .fee)) →
      evaluatePolicy decoded policy payer = .ok result → declared = .finite result.priorityFeeLamports

/-- The whole price of a unit, for all of them, comes to whole lamports. From nine SOL on, where the
quotients no longer fit, the last of them has to round up. -/
def Whole (fee : ℚ) (limit : ℕ) : Prop :=
  if fee < 9000000000 then 1000000 ∣ ⌊fee * 1000000 / limit⌋₊ * limit
  else ∀ price : ℕ, unitPrice (.finite fee) limit = .finite price →
    (Double.ofRat (price * limit / 1000000)).floor = .finite (priorityFee limit price)

section Bytes

theorem littleEndianBytes_length (width n : ℕ) : (littleEndianBytes width n).length = width := by
  induction width generalizing n with
  | zero => rfl
  | succ width ih => rw [littleEndianBytes,List.length_cons,ih]

theorem littleEndian_bytes {width n : ℕ} (fits : n < 256 ^ width) : littleEndian (littleEndianBytes width n) = n := by
  induction width generalizing n with
  | zero =>
    rw [pow_zero,Nat.lt_one_iff] at fits
    rw [fits]
    rfl
  | succ width ih =>
    have rest : n / 256 < 256 ^ width := Nat.div_lt_of_lt_mul (by rwa [← Nat.pow_succ'])
    rw [littleEndianBytes,littleEndian,List.foldr_cons]
    change (UInt8.ofNat n).toNat + 256 * littleEndian (littleEndianBytes width (n / 256)) = n
    have low : (UInt8.ofNat n).toNat = n % 256 := rfl
    rw [ih rest,low]
    omega

/-- A setting reads the program and the data of an instruction, whichever accounts it has. -/
theorem setting_budget {tag : UInt8} {encoding : Signer.AmountEncoding} {n : ℕ} {ix : DecodedInstruction}
    (fits : n < 256 ^ encoding.width)
    (same : (ix.programId,ix.data) = (COMPUTE_BUDGET_PROGRAM_ID,tag :: littleEndianBytes encoding.width n)) :
    setting tag encoding ix = some n := by
  rw [Prod.mk.injEq] at same
  obtain ⟨program,data⟩ := same
  have length : 1 + encoding.width ≤ ix.data.length := by
    rw [data,List.length_cons,littleEndianBytes_length]
    omega
  rw [setting,if_pos ⟨program,by rw [data]; rfl,length⟩,data,List.drop_one,List.tail_cons,
    List.take_of_length_le (littleEndianBytes_length _ _).le,littleEndian_bytes fits]

theorem setting_other {tag other : UInt8} (apart : tag ≠ other) {encoding : Signer.AmountEncoding} {rest : Bytes}
    {ix : DecodedInstruction} (same : (ix.programId,ix.data) = (COMPUTE_BUDGET_PROGRAM_ID,other :: rest)) :
    setting tag encoding ix = none := by
  rw [Prod.mk.injEq] at same
  refine if_neg fun set => apart ?_
  have head := set.2.1
  rw [same.2,List.head?_cons,Option.some.injEq] at head
  exact head.symm

end Bytes

section Built
variable {signer : Signer.Web3} {web3 : Web3Builder}

/-- What both builders come to, in the terms of the cluster. -/
theorem withBudget_fee (documented : web3.Documented signer) {payer hash : String}
    {instructions : List TransactionInstruction} {fee : Double} {limit : ℕ} {built : BuiltTx} {decoded : DecodedTransaction}
    (ok : withBudget web3 payer hash instructions fee limit = .ok built)
    (read : decodeTransaction signer built.unsignedTxBase64 = .ok decoded) :
    ∃ price : ℕ, limit < 2 ^ 32 ∧ unitPrice fee limit = .finite price ∧ clusterFee decoded = priorityFee limit price ∧
      built.priorityFeeLamports = declaredFee (.finite price) limit := by
  simp only [withBudget,bind_eq_ok,pure_eq_ok] at ok
  obtain ⟨limitIx,limited,priceIx,priced,wire,compiled,rfl⟩ := ok
  obtain ⟨small,rfl⟩ := documented.limit limit limitIx limited
  obtain ⟨price,small',asked,rfl⟩ := documented.price _ priceIx priced
  refine ⟨price,small,asked,?_,by rw [asked]⟩
  have same := documented.compiled payer hash _ wire decoded compiled read
  rw [List.map_cons,List.map_cons] at same
  obtain ⟨first,others,here,first_,same⟩ := List.map_eq_cons_iff.mp same
  obtain ⟨second,rest,rfl,second_,_⟩ := List.map_eq_cons_iff.mp same
  have limits : (unitLimits decoded).head? = some limit := by
    rw [unitLimits,here,List.filterMap_cons,setting_budget (by exact small) first_,List.head?_cons]
  have prices : (unitPrices decoded).head? = some price := by
    rw [unitPrices,here,List.filterMap_cons,setting_other (by decide) first_,List.filterMap_cons,
      setting_budget (by exact small') second_,List.head?_cons]
  rw [clusterFee,limits,prices]
  rfl

end Built

section Rounding
variable {fee : ℚ} {limit price : ℕ}

theorem max_zero_finite (q : ℚ) : Double.max 0 (.finite q) = .finite (max 0 q) := by
  rw [show (0 : Double) = .finite (0 : ℕ) from rfl,Nat.cast_zero]
  unfold Double.max
  rw [if_neg (by simp)]
  simp only [Double.finite_lt]
  split_ifs with positive
  · rw [max_eq_right positive.le]
  · rw [max_eq_left (not_lt.mp positive)]

theorem limit_pos (asked : unitPrice (.finite fee) limit = .finite price) : 0 < limit := by
  rcases limit.eq_zero_or_pos with rfl | positive
  · exfalso
    change ((Double.ofRat (fee * (1000000 : ℕ))) / (.finite (0 : ℕ))).floor = _ at asked
    cases scaled : Double.ofRat (fee * (1000000 : ℕ)) with
    | finite q =>
      rw [scaled] at asked
      change (Double.div (.finite q) (.finite (0 : ℕ))).floor = _ at asked
      rw [Double.div,if_pos Nat.cast_zero] at asked
      split_ifs at asked
      · cases asked
      · cases asked
    | infinite n =>
      rw [scaled] at asked
      cases asked
    | nan =>
      rw [scaled] at asked
      cases asked
  · exact positive

theorem unitPrice_eq (nonneg : 0 ≤ fee) (small : fee < 9000000000) (fits : limit < 2 ^ 32) (some_ : 0 < limit)
    (exact_ : ExactProducts fee limit) : unitPrice (.finite fee) limit = .finite (⌊fee * 1000000 / limit⌋₊ : ℕ) := by
  have positive : 0 ≤ fee * 1000000 := by positivity
  have sum : fee * 1000000 + limit < 2 ^ 53 := by
    have fits : (limit : ℚ) < 2 ^ 32 := by exact_mod_cast fits
    linarith
  change (Double.ofRat (fee * (1000000 : ℕ)) / .finite limit).floor = _
  rw [Nat.cast_ofNat,exact_.scaled]
  change (Double.div _ _).floor = _
  rw [Double.div,if_neg (by exact_mod_cast some_.ne')]
  exact Double.floor_div positive some_ (Double.magnitude_of_ofRat positive exact_.scaled) sum

theorem declaredFee_eq (small : price * limit < 9000000000000000) :
    declaredFee (.finite price) limit = .finite (price * limit / 1000000 : ℕ) := by
  have fits : price * limit < 2 ^ 53 := small.trans (by norm_num)
  have sum : ((price * limit : ℕ) : ℚ) + (1000000 : ℕ) < 2 ^ 53 := by
    have below : ((price * limit : ℕ) : ℚ) < 9000000000000000 := by exact_mod_cast small
    push_cast at below ⊢
    linarith
  change (Double.ofRat (price * limit) / (.finite (1000000 : ℕ))).floor = _
  rw [← Nat.cast_mul,Double.ofRat_natCast fits]
  change (Double.div _ _).floor = _
  rw [Double.div,if_neg (by norm_num),Double.floor_div (Nat.cast_nonneg _) (by decide) (Double.magnitude_natCast fits) sum,
    Nat.floor_div_eq_div]

theorem declares_iff {decoded : DecodedTransaction} (hex : Signer.Decoded decoded) {declared : Double} :
    Declares declared decoded ↔ declared = .finite (clusterFee decoded) := by
  constructor
  · exact fun declares => declares.equal
  · rintro rfl
    refine ⟨rfl,fun ceiling below => ?_,fun decode policy payer result rules accepted => ?_⟩
    · rw [Double.finite_le] at below
      exact_mod_cast below
    · have valid (rule) (there : rule ∈ policy.programs) := (rules rule there).1
      have covered (rule) (there : rule ∈ policy.programs) := (rules rule there).2
      rw [Signer.evaluatePolicy_fee covered valid hex accepted]

theorem down_eq_up {y : ℕ} : y / 1000000 = (y + 999999) / 1000000 ↔ 1000000 ∣ y := by omega

theorem declaredFee_iff (nonneg : 0 ≤ fee) (fits : limit < 2 ^ 32) (exact_ : ExactProducts fee limit)
    (asked : unitPrice (.finite fee) limit = .finite price) :
    declaredFee (.finite price) limit = .finite (priorityFee limit price) ↔ Whole fee limit := by
  have some_ := limit_pos asked
  unfold Whole
  split
  · rename_i small
    have known := unitPrice_eq nonneg small fits some_ exact_
    rw [asked,Double.finite.injEq,Nat.cast_inj] at known
    have below : price * limit < 9000000000000000 := by
      have divisor : (0 : ℚ) < limit := by exact_mod_cast some_
      have scaled := mul_le_mul_of_nonneg_right (Nat.floor_le (show 0 ≤ fee * 1000000 / limit by positivity)) divisor.le
      rw [div_mul_cancel₀ _ divisor.ne',← known] at scaled
      have most : ((price * limit : ℕ) : ℚ) < (9000000000000000 : ℕ) := by
        push_cast
        linarith
      exact_mod_cast most
    rw [declaredFee_eq below,Double.finite.injEq,Nat.cast_inj,← known,priorityFee,mul_comm limit price]
    exact down_eq_up
  · have same : declaredFee (.finite price) limit = (Double.ofRat (price * limit / 1000000)).floor := by
      change (Double.ofRat (price * limit) / (.finite (1000000 : ℕ))).floor = _
      rw [exact_.priced price asked]
      change (Double.div _ _).floor = _
      rw [Double.div,if_neg (by norm_num),Nat.cast_ofNat]
    rw [same]
    constructor
    · intro rounds price' asked'
      rw [asked,Double.finite.injEq,Nat.cast_inj] at asked'
      exact asked' ▸ rounds
    · exact fun rounds => rounds price asked

end Rounding

/-- Either builder declares what the cluster charges exactly when the price and the limit that it
encodes come to whole lamports. -/
theorem declared_iff (signer : Signer.Web3) (web3 : Web3Builder) (documented : web3.Documented signer) :
    (∀ (payer : PublicKey) (instructions : List TransactionInstruction) (hash : String) (fee : ℚ) (limit : Option ℕ)
      (built : BuiltTx) (decoded : DecodedTransaction),
      buildUnsignedTx web3 payer instructions hash (.finite fee) limit = .ok built →
        decodeTransaction signer built.unsignedTxBase64 = .ok decoded → ExactProducts fee (limit.getD DEFAULT_CU_LIMIT) →
          (Declares built.priorityFeeLamports decoded ↔ Whole fee (limit.getD DEFAULT_CU_LIMIT))) ∧
    (∀ (latest : Blockhash) (instructions : List TransactionInstruction) (extraSigners : List String) (payer : String)
      (fee : ℚ) (built : VenueTxDraft) (decoded : DecodedTransaction),
      MeteoraDlmmVenue.draft web3 latest instructions extraSigners payer (.finite fee) = .ok built →
        decodeTransaction signer built.unsignedTxBase64 = .ok decoded → ExactProducts (max 0 fee) DLMM_CU_LIMIT →
          (Declares built.priorityFeeLamports decoded ↔ Whole (max 0 fee) DLMM_CU_LIMIT)) := by
  constructor
  · intro payer instructions hash fee limit built decoded ok read exact_
    simp only [buildUnsignedTx,bind_eq_ok,reject_eq_ok,not_or,not_not] at ok
    obtain ⟨_,⟨_,least⟩,ok⟩ := ok
    have nonneg : 0 ≤ fee := by
      rw [show (0 : Double) = .finite (0 : ℕ) from rfl,Double.finite_lt] at least
      exact_mod_cast not_lt.mp least
    obtain ⟨price,fits,asked,charged,declared⟩ := withBudget_fee documented ok read
    rw [declares_iff (Signer.decodeTransaction_decoded read),declared,charged]
    exact declaredFee_iff nonneg fits exact_ asked
  · intro latest instructions extraSigners payer fee built decoded ok read exact_
    simp only [MeteoraDlmmVenue.draft,bind_eq_ok,pure_eq_ok] at ok
    obtain ⟨payerKey,_,tx,ok,rfl⟩ := ok
    rw [max_zero_finite] at ok
    obtain ⟨price,fits,asked,charged,declared⟩ := withBudget_fee documented ok read
    rw [declares_iff (Signer.decodeTransaction_decoded read),declared,charged]
    exact declaredFee_iff (le_max_left 0 fee) fits exact_ asked

/-! Two budgets without instructions behind them, as the libraries write and read them. -/
namespace Sample

def latest : Blockhash := ⟨"CktRuQ2mttgRGkXJtyksdKHjUdc2C4TgDzyB98oEzy8",100⟩

def budget (units microLamports : ℕ) : List TransactionInstruction := [
  ⟨COMPUTE_BUDGET_PROGRAM_ID,[],2 :: littleEndianBytes 4 units⟩,
  ⟨COMPUTE_BUDGET_PROGRAM_ID,[],3 :: littleEndianBytes 8 microLamports⟩]

def transaction (units microLamports : ℕ) : Signer.VersionedTransaction where
  signatures := [List.replicate 64 0]
  message := {
    version := some 0
    numRequiredSignatures := 1
    staticAccountKeys := [Signer.Sample.payer,Signer.Sample.computeBudget]
    recentBlockhash := latest.blockhash
    compiledInstructions := (budget units microLamports).map fun ix => ⟨1,[],ix.data⟩
    addressTableLookups := [] }

def wire (units microLamports : ℕ) : Bytes :=
  1 :: List.replicate 64 0 ++ [128,1,0,1,2] ++ Signer.Sample.payer ++ Signer.Sample.computeBudget ++ List.replicate 32 3 ++
    [2,1,0,5,2] ++ littleEndianBytes 4 units ++ [1,0,9,3] ++ littleEndianBytes 8 microLamports ++ [0]

def signer : Signer.Web3 where
  deserialize bytes :=
    if bytes = wire 600000 333333 then some (transaction 600000 333333)
    else if bytes = wire 250000 800000 then some (transaction 250000 800000)
    else none
  serialize tx :=
    if tx = transaction 600000 333333 then some (wire 600000 333333)
    else if tx = transaction 250000 800000 then some (wire 250000 800000)
    else none
  serializeMessage m :=
    if m = (transaction 600000 333333).message then (wire 600000 333333).drop 65 else (wire 250000 800000).drop 65
  base58 bytes := if bytes = Signer.Sample.payer then Signer.Sample.payerKey else COMPUTE_BUDGET_PROGRAM_ID
  sha256 _ := "digest"

def web3 : Web3Builder where
  publicKey text := .ok text
  findProgramAddress _ programId := programId
  setComputeUnitLimit units :=
    if units < 2 ^ 32 then .ok ⟨COMPUTE_BUDGET_PROGRAM_ID,[],2 :: littleEndianBytes 4 units⟩ else .error (.range "out of range")
  setComputeUnitPrice microLamports := do
    let n ← bigInt microLamports
    if 0 ≤ n ∧ n < 2 ^ 64 then return ⟨COMPUTE_BUDGET_PROGRAM_ID,[],3 :: littleEndianBytes 8 n.toNat⟩
    else throw (.range "out of range")
  compileV0 _ _ instructions :=
    if instructions = budget 600000 333333 then .ok (wire 600000 333333).toBase64
    else if instructions = budget 250000 800000 then .ok (wire 250000 800000).toBase64
    else .error (.range "encoding overruns Uint8Array")

def seen (decoded : DecodedTransaction) : List (String × Bytes) × ℕ :=
  (decoded.instructions.map fun ix => (ix.programId,ix.data),clusterFee decoded)

/-- What is seen of either wire that the builder writes. -/
theorem decodes {units microLamports : ℕ}
    (known : units = 600000 ∧ microLamports = 333333 ∨ units = 250000 ∧ microLamports = 800000) :
    (decodeTransaction signer (wire units microLamports).toBase64).toOption.map seen =
      some ((budget units microLamports).map fun ix => (ix.programId,ix.data),200000) := by
  have read : signer.deserialize (wire units microLamports) = some (transaction units microLamports) := by
    obtain ⟨rfl,rfl⟩ | ⟨rfl,rfl⟩ := known <;> decide +kernel
  have written : signer.serialize (transaction units microLamports) = some (wire units microLamports) := by
    obtain ⟨rfl,rfl⟩ | ⟨rfl,rfl⟩ := known <;> decide +kernel
  have keys : [Signer.Sample.payer,Signer.Sample.computeBudget].map signer.base58 =
      [Signer.Sample.payerKey,COMPUTE_BUDGET_PROGRAM_ID] := by decide +kernel
  have bytes : wire units microLamports ≠ [] := List.cons_ne_nil _ _
  have compiled : (transaction units microLamports).message.compiledInstructions.mapM
      (Signer.decodeInstruction [Signer.Sample.payerKey,COMPUTE_BUDGET_PROGRAM_ID] 2) = .ok
        ((budget units microLamports).map fun ix =>
          ⟨COMPUTE_BUDGET_PROGRAM_ID,1,[],[],ix.data,Bytes.toHex ix.data⟩) := rfl
  have decoded := Signer.decodeTransaction_toBase64 signer bytes read written keys rfl
    (by simp [transaction]) rfl (List.cons_ne_nil _ _) compiled
  rw [decoded]
  obtain ⟨rfl,rfl⟩ | ⟨rfl,rfl⟩ := known <;> decide +kernel

theorem decodes_dlmm : (decodeTransaction signer (wire 600000 333333).toBase64).toOption.map seen =
    some ((budget 600000 333333).map fun ix => (ix.programId,ix.data),200000) := decodes (.inl ⟨rfl,rfl⟩)

theorem decodes_curve : (decodeTransaction signer (wire 250000 800000).toBase64).toOption.map seen =
    some ((budget 250000 800000).map fun ix => (ix.programId,ix.data),200000) := decodes (.inr ⟨rfl,rfl⟩)

theorem of_toOption {ε α β : Type} {x : Except ε α} {f : α → β} {b : β} (reads : x.toOption.map f = some b) :
    ∃ a, x = .ok a ∧ f a = b := by
  cases x with
  | error e => cases reads
  | ok a => exact ⟨a,rfl,Option.some.inj reads⟩

theorem documented : web3.Documented signer := by
  constructor
  · intro units ix made
    simp only [web3] at made
    split_ifs at made with fits
    exact ⟨fits,(Except.ok.inj made).symm⟩
  · intro microLamports ix made
    simp only [web3,bind_eq_ok,bigInt_eq_ok] at made
    obtain ⟨n,rfl,made⟩ := made
    split_ifs at made with fits
    obtain ⟨k,rfl⟩ := Int.eq_ofNat_of_zero_le fits.1
    exact ⟨k,by exact_mod_cast fits.2,rfl,(Except.ok.inj made).symm⟩
  · intro payer hash instructions text decoded made read
    simp only [web3] at made
    split_ifs at made with dlmm curve
    · obtain rfl := Except.ok.inj made
      obtain ⟨known,known_,same⟩ := of_toOption decodes_dlmm
      rw [known_,Except.ok.injEq] at read
      rw [dlmm,← read]
      exact congrArg Prod.fst same
    · obtain rfl := Except.ok.inj made
      obtain ⟨known,known_,same⟩ := of_toOption decodes_curve
      rw [known_,Except.ok.injEq] at read
      rw [curve,← read]
      exact congrArg Prod.fst same

theorem prices {limit price : ℕ} (known : limit = 600000 ∧ price = 333333 ∨ limit = 250000 ∧ price = 800000) :
    unitPrice (.finite 200000) limit = .finite price := by
  obtain ⟨rfl,rfl⟩ | ⟨rfl,rfl⟩ := known <;> decide +kernel

theorem exact_prices {limit price : ℕ} (known : limit = 600000 ∧ price = 333333 ∨ limit = 250000 ∧ price = 800000) :
    ExactProducts 200000 limit := by
  have first := prices known
  refine ⟨by obtain ⟨rfl,rfl⟩ | ⟨rfl,rfl⟩ := known <;> decide +kernel,fun price' asked => ?_⟩
  rw [first,Double.finite.injEq,Nat.cast_inj] at asked
  rw [← asked]
  obtain ⟨rfl,rfl⟩ | ⟨rfl,rfl⟩ := known <;> decide +kernel

theorem exact_curve : ExactProducts 200000 250000 := exact_prices (.inr ⟨rfl,rfl⟩)

theorem exact_dlmm : ExactProducts 200000 600000 := exact_prices (.inl ⟨rfl,rfl⟩)

theorem built_curve : buildUnsignedTx web3 Signer.Sample.payerKey [] latest.blockhash (.finite 200000) none =
    .ok ⟨(wire 250000 800000).toBase64,latest.blockhash,.finite 200000,250000⟩ := by
  have price : unitPrice (.finite 200000) 250000 = .finite (800000 : ℤ) := by simpa using prices (.inr ⟨rfl,rfl⟩)
  have declared : declaredFee (.finite (800000 : ℤ)) 250000 = .finite 200000 := by
    simpa using @declaredFee_eq 250000 800000 (by norm_num)
  simp only [buildUnsignedTx,withBudget,Option.getD_none,DEFAULT_CU_LIMIT,price,declared]
  rfl

theorem built_dlmm : MeteoraDlmmVenue.draft web3 latest [] [] Signer.Sample.payerKey (.finite 200000) =
    .ok ⟨(wire 600000 333333).toBase64,latest.blockhash,100,.finite 199999,[]⟩ := by
  have asked : Double.max 0 (.finite 200000) = .finite 200000 := by
    rw [max_zero_finite,max_eq_right (by norm_num)]
  have price : unitPrice (.finite 200000) 600000 = .finite (333333 : ℤ) := by simpa using prices (.inl ⟨rfl,rfl⟩)
  have declared : declaredFee (.finite (333333 : ℤ)) 600000 = .finite 199999 := by
    simpa using @declaredFee_eq 600000 333333 (by norm_num)
  simp only [MeteoraDlmmVenue.draft,withBudget,asked,DLMM_CU_LIMIT,price,declared]
  rfl

theorem exact_dlmm_max : ExactProducts (max 0 200000) DLMM_CU_LIMIT := by
  rw [max_eq_right (by norm_num)]
  exact exact_dlmm

theorem declared_sample :
    (∃ built decoded, buildUnsignedTx web3 Signer.Sample.payerKey [] latest.blockhash (.finite 200000) none = .ok built ∧
      decodeTransaction signer built.unsignedTxBase64 = .ok decoded ∧
        (Declares built.priorityFeeLamports decoded ↔ Whole 200000 250000)) ∧
    (∃ built decoded, MeteoraDlmmVenue.draft web3 latest [] [] Signer.Sample.payerKey (.finite 200000) = .ok built ∧
      decodeTransaction signer built.unsignedTxBase64 = .ok decoded ∧
        (Declares built.priorityFeeLamports decoded ↔ Whole (max 0 200000) 600000)) := by
  obtain ⟨curve,dlmm⟩ := declared_iff signer web3 documented
  obtain ⟨decoded,read,_⟩ := of_toOption decodes_curve
  obtain ⟨decoded',read',_⟩ := of_toOption decodes_dlmm
  exact ⟨⟨_,decoded,built_curve,read,curve _ _ _ _ _ _ _ built_curve read exact_curve⟩,
    ⟨_,decoded',built_dlmm,read',dlmm _ _ _ _ _ _ _ built_dlmm read' exact_dlmm_max⟩⟩

/-- The default fee of the tools, under the limit of the DLMM venue. -/
theorem fee_undeclared : ¬∀ (signer : Signer.Web3) (web3 : Web3Builder), web3.Documented signer →
    ∀ (latest : Blockhash) (instructions : List TransactionInstruction) (extraSigners : List String) (payer : String)
      (fee : ℚ) (built : VenueTxDraft) (decoded : DecodedTransaction),
      MeteoraDlmmVenue.draft web3 latest instructions extraSigners payer (.finite fee) = .ok built →
        decodeTransaction signer built.unsignedTxBase64 = .ok decoded → ExactProducts (max 0 fee) DLMM_CU_LIMIT →
          Declares built.priorityFeeLamports decoded := by
  intro all
  obtain ⟨decoded,read,same⟩ := of_toOption decodes_dlmm
  have declares := all signer web3 documented latest [] [] Signer.Sample.payerKey 200000 _ decoded built_dlmm read exact_dlmm_max
  have charged : clusterFee decoded = 200000 := congrArg Prod.snd same
  have equal := declares.equal
  rw [charged,Double.finite.injEq] at equal
  norm_num at equal

end Sample

end RatifyOs.Pools
