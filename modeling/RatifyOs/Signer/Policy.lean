import RatifyOs.Autonomy.Encoding
import RatifyOs.Data.Tally
import RatifyOs.Execution.Canonical
import RatifyOs.Signer.Transaction

/-! The policy that the signer checks again for every transaction: what it lets leave the
wallet, and the file it is loaded from. `bs58` and the hash are parameters. -/
namespace RatifyOs.Signer
open Data Data.Result
open Autonomy.Encoding (Document)

def COMPUTE_BUDGET_PROGRAM_ID : String := "ComputeBudget111111111111111111111111111111"

def DEFAULT_UNITS_PER_INSTRUCTION : ℕ := 200000

def MAX_UNITS_PER_TRANSACTION : ℕ := 1400000

def SET_UNIT_LIMIT : String := "02"

def SET_UNIT_PRICE : String := "03"

def NATIVE_ASSET : String := "native"

inductive AmountEncoding where
  | u64le
  | u32le
  deriving DecidableEq

structure SignerSpendRule where
  asset : String
  amountOffset : ℕ
  amountEncoding : AmountEncoding
  mintAccountIndex : Option ℕ
  deriving DecidableEq

inductive Effect where
  | none
  | fee
  | spend (spend : SignerSpendRule)
  deriving DecidableEq

structure SignerProgramRule where
  programId : String
  discriminator : String
  effect : Effect
  deriving DecidableEq

structure SignPolicy where
  cluster : String
  feePayers : List String
  programs : List SignerProgramRule
  caps : List (String × ℕ)
  maxInstructions : ℕ
  maxAccountKeys : ℕ
  maxRequiredSignatures : ℕ
  maxComputeUnitLimit : ℕ
  maxComputeUnitPriceMicroLamports : ℕ
  maxPriorityFeeLamports : ℕ
  maxPriorityFeeBps : Option ℕ
  addressLookupTables : List String
  deriving DecidableEq

structure LoadedSignPolicy extends SignPolicy where
  version : ℕ
  hash : String
  deriving DecidableEq

/-- Base units by asset, in the order of their first instructions. -/
abbrev Spend := Table (Prod.fst : String × ℕ → String)

structure PolicyEvaluation where
  spend : Spend
  computeUnitLimit : ℕ
  computeUnitPriceMicroLamports : ℕ
  priorityFeeLamports : ℕ

section Evaluate

def littleEndian (bytes : Bytes) : ℕ := bytes.foldr (fun b n => b.toNat + 256 * n) 0

def AmountEncoding.width : AmountEncoding → ℕ
  | u64le => 8
  | u32le => 4

def readAmount (data : Bytes) (offset : ℕ) (encoding : AmountEncoding) : Except String ℕ := do
  reject (offset + encoding.width > data.length) "policy_spend_unreadable"
  return littleEndian ((data.drop offset).take encoding.width)

/-- Most specific (longest) matching discriminator wins. -/
def matchRule (rules : List SignerProgramRule) (programId dataHex : String) : Option SignerProgramRule × Bool :=
  rules.foldl (fun found rule =>
    if rule.programId ≠ programId then found
    else if ¬rule.discriminator.toList <+: dataHex.toList then (found.1,true)
    else if found.1.all fun best => rule.discriminator.length > best.discriminator.length then (some rule,true)
    else (found.1,true)) (none,false)

/-- What the loop over the instructions has gathered. -/
structure Gathered where
  spend : Spend
  explicitLimit : Option ℕ
  unitPrice : Option ℕ

def amounts : Tallied (Prod.fst : String × ℕ → String) ℕ where
  amount := Prod.snd
  grow entry m := (entry.1,entry.2 + m)
  key_grow _ _ := rfl
  amount_grow _ _ := rfl

/-- The account a rule pins is the asset itself; `null` resolves through a lookup table. -/
def checkMint (spend : SignerSpendRule) (accounts : List (Option String)) : Except String Unit :=
  match spend.mintAccountIndex with
  | none => return ()
  | some i => do
    let account ← required accounts[i]? "policy_spend_mint_missing"
    reject (account ≠ some spend.asset) "policy_spend_mint_mismatch"

def gather (rules : List SignerProgramRule) (so : Gathered) (ix : DecodedInstruction) : Except String Gathered := do
  let found := matchRule rules ix.programId ix.dataHex
  reject (found.2 = false) "policy_program"
  let rule ← required found.1 "policy_instruction"
  match rule.effect with
  | .none => return so
  | .fee =>
    if rule.discriminator = SET_UNIT_LIMIT then do
      reject (so.explicitLimit.isSome = true) "policy_compute_units"
      let limit ← readAmount ix.data 1 .u32le
      return { so with explicitLimit := some limit }
    else if rule.discriminator = SET_UNIT_PRICE then do
      reject (so.unitPrice.isSome = true) "policy_compute_unit_price"
      let price ← readAmount ix.data 1 .u64le
      return { so with unitPrice := some price }
    else return so
  | .spend spend => do
    checkMint spend ix.accounts
    let amount ← readAmount ix.data spend.amountOffset spend.amountEncoding
    return { so with spend := amounts.add so.spend (spend.asset,amount) }

def checkCap (caps : List (String × ℕ)) (entry : String × ℕ) : Except String Unit := do
  let cap ← required (caps.lookup entry.1) "policy_cap_missing"
  reject (entry.2 > cap) "policy_spend_cap"

def defaultLimit (instructions : ℕ) : ℕ := min (DEFAULT_UNITS_PER_INSTRUCTION * instructions) MAX_UNITS_PER_TRANSACTION

/-- `ceil(limit * microLamports / 1e6)` -/
def priorityFee (limit microLamports : ℕ) : ℕ := (limit * microLamports + 999999) / 1000000

def evaluatePolicy (decoded : DecodedTransaction) (policy : SignPolicy) (expectedFeePayer : String) :
    Except String PolicyEvaluation := do
  reject (decoded.feePayer ≠ expectedFeePayer ∨ decoded.feePayer ∉ policy.feePayers) "policy_fee_payer"
  reject (decoded.numRequiredSignatures > policy.maxRequiredSignatures) "policy_signers"
  reject (decoded.staticAccountKeys.length > policy.maxAccountKeys) "policy_account_keys"
  reject (decoded.instructions.length > policy.maxInstructions) "policy_instruction_count"
  reject (∃ lookup ∈ decoded.addressTableLookups, lookup.accountKey ∉ policy.addressLookupTables)
    "policy_address_table_lookup"
  let so ← decoded.instructions.foldlM (gather policy.programs) ⟨.empty,none,none⟩
  let computeUnitLimit := so.explicitLimit.getD (defaultLimit decoded.instructions.length)
  reject (computeUnitLimit > 9007199254740991 ∨ computeUnitLimit > policy.maxComputeUnitLimit) "policy_compute_units"
  let microLamports := so.unitPrice.getD 0
  reject (microLamports > policy.maxComputeUnitPriceMicroLamports) "policy_compute_unit_price"
  let priorityFeeLamports := priorityFee computeUnitLimit microLamports
  reject (priorityFeeLamports > policy.maxPriorityFeeLamports) "policy_priority_fee"
  reject (∃ bps ∈ policy.maxPriorityFeeBps, ∃ leg ∈ so.spend.find? NATIVE_ASSET,
    leg.2 > 0 ∧ priorityFeeLamports > leg.2 * bps / 10000) "policy_priority_fee"
  so.spend.rows.forM (checkCap policy.caps)
  return ⟨so.spend,computeUnitLimit,microLamports,priorityFeeLamports⟩

end Evaluate

section Load
variable (decode : String → Option Bytes) (sha256 : Text → String)

def isPublicKey (value : String) : Bool := value ≠ "" ∧ (decode value).any fun bytes => bytes.length = 32

mutual

/-- What a text of safe integers says. -/
def ofJson : Json → Option Document
  | .null => some .null
  | .bool b => some (.bool b)
  | .num n => if Execution.SafeInteger n then some (.num n) else none
  | .str s => some (.str s)
  | .arr items => (ofItems items).map .arr
  | .obj fields => (ofFields fields).map .obj

def ofItems : List Json → Option (List Document)
  | [] => some []
  | v :: items => do return (← ofJson v) :: (← ofItems items)

def ofFields : List (String × Json) → Option (List (String × Document))
  | [] => some []
  | (key,v) :: fields => do return (key,← ofJson v) :: (← ofFields fields)

end

/-- What `lstat` and `readFile` tell about the file, and what `JSON.parse` reads in it. -/
structure PolicyFile where
  isSymbolicLink : Bool
  isFile : Bool
  permissionsAreUnsafe : Bool
  raw : Text
  document : Option Document
  /-- A numeral with a fraction or an exponent is read as well. -/
  reads : ∀ v x, Json.parse raw = some v → ofJson v = some x → document = some x

/-- A file with the text of this value. -/
def PolicyFile.written (v : Json) (distinct : Execution.Distinct v) : PolicyFile where
  isSymbolicLink := false
  isFile := true
  permissionsAreUnsafe := false
  raw := Execution.stringify v
  document := ofJson v
  reads v' x parsed known := by
    rw [Execution.parse_stringify distinct,Option.some.injEq] at parsed
    rw [parsed,known]

def property (x : Document) (key : String) : Option Document :=
  match x with
  | .obj fields => fields.lookup key
  | _ => none

def textOf : Option Document → Option String
  | some (.str value) => some value
  | _ => none

def itemsOf : Option Document → Option (List Document)
  | some (.arr items) => some items
  | _ => none

def fieldsOf : Option Document → Option (List (String × Document))
  | some (.obj fields) => some fields
  | _ => none

def publicKeyOf (v : Document) : Option String := (textOf (some v)).filter fun value => isPublicKey decode value

def parseUnsigned (value : Option Document) (label : String) : Except String ℕ := do
  let value ← required ((textOf value).filter fun value => decimal value.toList) ("policy_" ++ label ++ "_invalid")
  return Nat.ofDigitChars 10 value.toList 0
where
  decimal (digits : Text) : Bool :=
    digits ≠ [] ∧ digits.all Char.isDigit ∧ (digits = ['0'] ∨ digits.head? ≠ some '0')

/-- Every bound of a count is itself a safe integer. -/
def parseCount (value : Option Document) (label : String) (max : ℕ) : Except String ℕ :=
  match value with
  | some (.num q) => if q.den = 1 ∧ 0 ≤ q ∧ q ≤ max then return q.num.toNat else throw ("policy_" ++ label ++ "_invalid")
  | _ => throw ("policy_" ++ label ++ "_invalid")

def optionalCount (value : Option Document) (label : String) (max : ℕ) : Except String (Option ℕ) :=
  match value with
  | none => return none
  | some value => return some (← parseCount (some value) label max)

/-- `/^(?:[0-9a-f]{2})+$/` -/
def hexPrefix (digits : Text) : Bool :=
  digits ≠ [] ∧ digits.length % 2 = 0 ∧ digits.all fun c => c.isDigit ∨ (97 ≤ c.toNat ∧ c.toNat ≤ 102)

def parseSpend (s : Option Document) : Except String SignerSpendRule := do
  let s ← required s "policy_spend_invalid"
  let asset ← required ((textOf (property s "asset")).filter fun asset => asset = NATIVE_ASSET ∨ isPublicKey decode asset)
    "policy_spend_invalid"
  let amountEncoding ← required (encodingOf (textOf (property s "amountEncoding"))) "policy_spend_invalid"
  let amountOffset ← parseCount (property s "amountOffset") "spend" 1024
  let mintAccountIndex ← optionalCount (property s "mintAccountIndex") "spend" 255
  reject (mintAccountIndex.isSome = true ∧ asset = NATIVE_ASSET) "policy_spend_invalid"
  return { asset, amountOffset, amountEncoding, mintAccountIndex }
where
  encodingOf : Option String → Option AmountEncoding
    | some text => if text = "u64le" then some .u64le else if text = "u32le" then some .u32le else none
    | none => none

def parseProgramRule (x : Document) : Except String SignerProgramRule := do
  let programId ← required ((property x "programId").bind (publicKeyOf decode)) "policy_program_invalid"
  let discriminator ← required ((textOf (property x "discriminator")).filter fun d => hexPrefix d.toList ∧ d.length ≤ 32)
    "policy_discriminator_invalid"
  let effect ← required (textOf (property x "effect")) "policy_effect_invalid"
  if effect = "none" then return { programId, discriminator, effect := .none }
  else if effect = "fee" then do
    reject (programId ≠ COMPUTE_BUDGET_PROGRAM_ID) "policy_fee_effect_invalid"
    reject (discriminator ≠ SET_UNIT_LIMIT ∧ discriminator ≠ SET_UNIT_PRICE) "policy_fee_effect_invalid"
    return { programId, discriminator, effect := .fee }
  else do
    reject (effect ≠ "spend") "policy_effect_invalid"
    let spend ← parseSpend decode (property x "spend")
    return { programId, discriminator, effect := .spend spend }

def SignerProgramRule.key (rule : SignerProgramRule) : String := rule.programId ++ ":" ++ rule.discriminator

def parseCap (entry : String × Document) : Except String (String × ℕ) := do
  reject (entry.1 ≠ NATIVE_ASSET ∧ isPublicKey decode entry.1 = false) "policy_cap_invalid"
  return (entry.1,← parseUnsigned (some entry.2) "cap")

/-- `x.version !== 1` and the other checks of the format. -/
structure PolicyFormat where
  cluster : String
  feePayers : List String
  programs : List Document
  caps : List (String × Document)
  addressLookupTables : List String

def policyFormat (x : Document) : Option PolicyFormat := do
  let version ← property x "version"
  let cluster ← (textOf (property x "cluster")).filter (· ≠ "")
  let feePayers ← (← itemsOf (property x "feePayers")).mapM (publicKeyOf decode)
  let programs ← itemsOf (property x "programs")
  let caps ← fieldsOf (property x "caps")
  let addressLookupTables ← (← itemsOf (property x "addressLookupTables")).mapM (publicKeyOf decode)
  if one version = true ∧ feePayers ≠ [] ∧ programs ≠ [] then
    return { cluster, feePayers, programs, caps, addressLookupTables }
  else none
where
  one : Document → Bool
    | .num q => q = 1
    | _ => false

def loadSignPolicy (file : PolicyFile) : Except String LoadedSignPolicy := do
  reject (file.isSymbolicLink = true) "policy_symlink_forbidden"
  reject (file.isFile = false) "policy_format_invalid"
  reject (file.permissionsAreUnsafe = true) "policy_permissions_unsafe"
  let x ← required file.document "policy_format_invalid"
  reject (isNull x = true) "Cannot read properties of null (reading 'version')"
  let format ← required (policyFormat decode x) "policy_format_invalid"
  let programs ← format.programs.mapM (parseProgramRule decode)
  reject (¬(programs.map SignerProgramRule.key).Nodup) "policy_program_duplicate"
  let caps ← format.caps.mapM (parseCap decode)
  let maxInstructions ← parseCount (property x "maxInstructions") "max_instructions" 64
  let maxAccountKeys ← parseCount (property x "maxAccountKeys") "max_account_keys" 256
  let maxRequiredSignatures ← parseCount (property x "maxRequiredSignatures") "max_required_signatures" 8
  let maxComputeUnitLimit ← parseCount (property x "maxComputeUnitLimit") "max_compute_unit_limit" MAX_UNITS_PER_TRANSACTION
  let maxComputeUnitPriceMicroLamports ←
    parseUnsigned (property x "maxComputeUnitPriceMicroLamports") "max_compute_unit_price"
  let maxPriorityFeeLamports ← parseUnsigned (property x "maxPriorityFeeLamports") "max_priority_fee"
  let maxPriorityFeeBps ← optionalCount (property x "maxPriorityFeeBps") "max_priority_fee_bps" 10000
  return {
    version := 1, cluster := format.cluster, feePayers := format.feePayers, programs, caps, maxInstructions
    maxAccountKeys, maxRequiredSignatures, maxComputeUnitLimit, maxComputeUnitPriceMicroLamports
    maxPriorityFeeLamports, maxPriorityFeeBps, addressLookupTables := format.addressLookupTables
    hash := "0x" ++ sha256 file.raw }
where
  isNull : Document → Bool
    | .null => true
    | _ => false

end Load

/-! A policy with one fee rule and one transfer, and the transfer of five lamports. -/
namespace Sample

def payerKey : String := "4vJ9JU1bJJE96FWSJKvHsmmFADCg4gpZQff4P3bkLKi"

def systemKey : String := "11111111111111111111111111111111"

def computeBudget : Bytes :=
  [3, 6, 70, 111, 229, 33, 23, 50, 255, 236, 173, 186, 114, 195, 155, 231, 188, 140, 229, 187, 197, 247, 18, 107, 44, 67, 155, 58, 64, 0, 0, 0]

def decode (text : String) : Option Bytes :=
  if text = payerKey then some payer
  else if text = systemKey then some program
  else if text = COMPUTE_BUDGET_PROGRAM_ID then some computeBudget
  else none

def policyJsonOf (programs : List Json) (caps : List (String × Json)) : Json := .obj [
  ("version",.num 1),
  ("cluster",.str "mainnet-beta"),
  ("feePayers",.arr [.str payerKey]),
  ("programs",.arr programs),
  ("caps",.obj caps),
  ("maxInstructions",.num 4),
  ("maxAccountKeys",.num 8),
  ("maxRequiredSignatures",.num 1),
  ("maxComputeUnitLimit",.num 1000000),
  ("maxComputeUnitPriceMicroLamports",.str "0"),
  ("maxPriorityFeeLamports",.str "0"),
  ("addressLookupTables",.arr [])]

def policyJson : Json := policyJsonOf [
  .obj [("programId",.str COMPUTE_BUDGET_PROGRAM_ID),("discriminator",.str "02"),("effect",.str "fee")],
  .obj [("programId",.str systemKey),("discriminator",.str "02000000"),("effect",.str "spend"),
    ("spend",.obj [("asset",.str "native"),("amountOffset",.num 4),("amountEncoding",.str "u64le")])]]
  [("native",.str "1000")]

def policySha256 (text : Text) : String :=
  if text = Execution.stringify policyJson then "46190a21406bc6d3a31ead89e67adcf4654862fcf241b1bea865b065f37135e1" else ""

def policyFile : PolicyFile := .written policyJson (by
  simp [policyJson,policyJsonOf,Execution.Distinct,Execution.DistinctItems,Execution.DistinctFields])

def signPolicy : LoadedSignPolicy where
  version := 1
  cluster := "mainnet-beta"
  feePayers := [payerKey]
  programs := [⟨COMPUTE_BUDGET_PROGRAM_ID,"02",.fee⟩,⟨systemKey,"02000000",.spend ⟨"native",4,.u64le,none⟩⟩]
  caps := [("native",1000)]
  maxInstructions := 4
  maxAccountKeys := 8
  maxRequiredSignatures := 1
  maxComputeUnitLimit := 1000000
  maxComputeUnitPriceMicroLamports := 0
  maxPriorityFeeLamports := 0
  maxPriorityFeeBps := none
  addressLookupTables := []
  hash := "0x46190a21406bc6d3a31ead89e67adcf4654862fcf241b1bea865b065f37135e1"

theorem policy_loads : loadSignPolicy decode policySha256 policyFile = .ok signPolicy := by decide +kernel

end Sample

end RatifyOs.Signer
