import RatifyOs.Execution.Canonical
import RatifyOs.Signer.Transaction

/-! `SignerWireVerifier`: an authorization envelope, as it is read out of JSON, is checked
against the transaction this process decodes for itself. -/
namespace RatifyOs.Signer
open Data Data.Result RatifyOs.Execution

def AUTHORIZATION_PROTOCOL : String := "ari-solana-execution-authorization"

/-- What of the language depends on Unicode tables. -/
structure Locale where
  localeCompare : String → String → ℤ
  toLowerCase : String → String

/-- The dependencies of the verifier; `verifier` is given the text, the signature and the
key id as the envelope has them. -/
structure WireVerifier where
  verifier : Text → Option Json → Option Json → Bool
  audience : String
  cluster : Option String
  signerKeyId : Option String
  authorizationKeyIds : Option (List String)
  policyHash : Option String
  policyVersion : Option ℤ
  maxTtlMs : Option ℤ

namespace SignerWireVerifier

section Verify
variable (web3 : Web3) (locale : Locale)

def canonicalClaims (claims : Json) : Text := stringify (normalize locale.localeCompare claims)

/-- `undefined` is written as no text, which is never equal to one. -/
def eq (a : Option Json) (b : Json) : Bool :=
  a.map (fun a => stringify (normalize locale.localeCompare a)) = some (stringify (normalize locale.localeCompare b))

/-- `value?.toLowerCase() !== expected.toLowerCase()` -/
def lowerDiffers (value : Option Json) (expected : String) : Except String Bool :=
  match value with
  | none => .ok true
  | some .null => .ok true
  | some (.str s) => .ok (locale.toLowerCase s ≠ locale.toLowerCase expected)
  | some _ => .error "toLowerCase is not a function"

def instructionClaim (i : DecodedInstruction) : Json :=
  .obj [("programId",.str i.programId),("accounts",.arr (i.accounts.map Json.nullable)),("data",.str i.dataHex)]

/-- `[...new Set(ids)].sort()` -/
def sortedProgramIds (d : DecodedTransaction) : List String :=
  (d.instructions.map (·.programId)).eraseDups.insertionSort fun a b => codeUnits a ≤ codeUnits b

def isObject : Json → Bool
  | .obj _ => true
  | .arr _ => true
  | _ => false

/-- What the claims say of the transaction is what was decoded. -/
def assertTransaction (c : Json) (d : DecodedTransaction) : Except String Unit := do
  let text (key : String) : Option String := (property key c).bind textOf
  reject (text "transaction" ≠ some d.wireBase64 ∨ text "message" ≠ some d.messageBase64)
    "envelope_transaction_mismatch"
  let hash ← lowerDiffers locale (property "messageHash" c) d.messageHash
  reject (hash = true ∨ text "feePayer" ≠ some d.feePayer ∨ text "recentBlockhash" ≠ some d.recentBlockhash ∨
      eq locale (property "accountKeys" c) (.strings d.staticAccountKeys) = false ∨
      eq locale (property "programIds" c) (.strings (sortedProgramIds d)) = false ∨
      eq locale (property "addressTableLookups" c) (.strings (d.addressTableLookups.map (·.accountKey))) = false ∨
      eq locale (property "instructions" c) (.arr (d.instructions.map instructionClaim)) = false)
    "envelope_transaction_mismatch"

variable (v : WireVerifier) (now : ℤ)

/-- The times and the protocol of the claims. -/
def assertCurrent (c : Json) : Except String Unit := do
  reject ((property "protocol" c).bind textOf ≠ some AUTHORIZATION_PROTOCOL ∨
    (property "version" c).bind numberOf ≠ some 1) "envelope_version_invalid"
  let issuedAt ← required ((property "issuedAt" c).bind Execution.safeInteger) "envelope_version_invalid"
  let expiresAt ← required ((property "expiresAt" c).bind Execution.safeInteger) "envelope_version_invalid"
  reject (issuedAt > now) "envelope_issued_in_future"
  reject (now ≥ expiresAt ∨ expiresAt - issuedAt > v.maxTtlMs.getD 60000) "envelope_expired"

/-- The signer and the policy that the claims name are the ones configured here. -/
def assertConfigured (c : Json) : Except String Unit := do
  let text (key : String) : Option String := (property key c).bind textOf
  reject (text "audience" ≠ some v.audience) "envelope_audience_mismatch"
  reject ((present v.signerKeyId).any fun id => text "signerKeyId" ≠ some id) "envelope_signer_mismatch"
  let policy ← (match present v.policyHash with
    | some hash => lowerDiffers locale (property "policyHash" c) hash
    | none => pure false)
  reject (policy = true ∨ v.policyVersion.any fun version => (property "policyVersion" c).bind numberOf ≠ some version)
    "envelope_policy_mismatch"
  reject (v.authorizationKeyIds.any fun ids => (present (text "signerKeyId")).all (· ∉ ids))
    "envelope_authorization_key_unknown"

def verify (transaction : String) (envelope : Json) : Except String DecodedTransaction := do
  let d ← decodeTransaction web3 transaction
  let c ← required ((property "claims" envelope).filter isObject) "envelope_invalid"
  assertCurrent v now c
  assertConfigured locale v c
  reject (v.verifier (canonicalClaims locale c) (property "signature" envelope) (property "signerKeyId" c) = false)
    "envelope_signature_invalid"
  reject (v.cluster.any fun cluster => (property "cluster" c).bind textOf ≠ some cluster) "envelope_cluster_mismatch"
  reject (((property "lastValidBlockHeight" c).bind Execution.safeInteger).all (· < 0)) "envelope_blockhash_invalid"
  assertTransaction locale c d
  return d

end Verify

end SignerWireVerifier

end RatifyOs.Signer
