import RatifyOs.Data.Buffer
import RatifyOs.Data.Result

/-! Independent transaction decoding: what the policy, the envelope and the orchestrator
check is read out of the wire bytes. `web3.js`, `bs58` and the hash are parameters. -/
namespace RatifyOs.Signer
open Data Data.Result

structure CompiledInstruction where
  programIdIndex : ℕ
  accountKeyIndexes : List ℕ
  data : Bytes
  deriving DecidableEq

structure AddressTableLookup where
  accountKey : Bytes
  writableIndexes : List ℕ
  readonlyIndexes : List ℕ
  deriving DecidableEq

/-- `VersionedMessage`; a legacy message has no version number. -/
structure Message where
  version : Option ℕ
  numRequiredSignatures : ℕ
  staticAccountKeys : List Bytes
  recentBlockhash : String
  compiledInstructions : List CompiledInstruction
  addressTableLookups : List AddressTableLookup
  deriving DecidableEq

structure VersionedTransaction where
  signatures : List Bytes
  message : Message
  deriving DecidableEq

/-- The third-party functions the decoder calls. -/
structure Web3 where
  deserialize : Bytes → Option VersionedTransaction
  serialize : VersionedTransaction → Option Bytes
  serializeMessage : Message → Bytes
  base58 : Bytes → String
  /-- The digest in lowercase hex. -/
  sha256 : Bytes → String

structure DecodedInstruction where
  programId : String
  programIdIndex : ℕ
  accountIndexes : List ℕ
  accounts : List (Option String)
  data : Bytes
  dataHex : String
  deriving DecidableEq

structure DecodedAddressTableLookup where
  accountKey : String
  writableIndexes : List ℕ
  readonlyIndexes : List ℕ
  deriving DecidableEq

structure DecodedTransaction where
  version : Option ℕ
  feePayer : String
  recentBlockhash : String
  numRequiredSignatures : ℕ
  staticAccountKeys : List String
  signatures : List (Option String)
  addressTableLookups : List DecodedAddressTableLookup
  instructions : List DecodedInstruction
  messageBytes : Bytes
  messageBase64 : String
  messageHash : String
  wireBase64 : String
  transaction : VersionedTransaction
  deriving DecidableEq

section Decoder
variable (web3 : Web3)

def sha256Hex (bytes : Bytes) : String := "0x" ++ web3.sha256 bytes

def emptySignature (signature : Bytes) : Bool := signature.all (· = 0)

/-- An account index past the static keys resolves through a lookup table, if at all. -/
def decodeAccount (staticKeys : List String) (totalKeys i : ℕ) : Except String (Option String) := do
  reject (i ≥ totalKeys) "transaction_accounts_invalid"
  return staticKeys[i]?

def decodeInstruction (staticKeys : List String) (totalKeys : ℕ) (ix : CompiledInstruction) :
    Except String DecodedInstruction := do
  let programId ← required staticKeys[ix.programIdIndex]? "transaction_program_unresolvable"
  let accounts ← ix.accountKeyIndexes.mapM (decodeAccount staticKeys totalKeys)
  return {
    programId, accounts
    programIdIndex := ix.programIdIndex
    accountIndexes := ix.accountKeyIndexes
    data := ix.data
    dataHex := ix.data.toHex }

def decodeTransaction (wireBase64 : String) : Except String DecodedTransaction := do
  reject (wireBase64 = "") "transaction_invalid"
  let raw := Bytes.ofBase64 wireBase64
  reject (raw = [] ∨ raw.toBase64 ≠ wireBase64) "transaction_encoding_invalid"
  let tx ← required (web3.deserialize raw) "transaction_invalid"
  let canonical ← required (web3.serialize tx) "transaction_invalid"
  reject (canonical ≠ raw) "transaction_encoding_invalid"
  let message := tx.message
  let staticKeys := message.staticAccountKeys.map web3.base58
  let feePayer ← required staticKeys.head? "transaction_accounts_invalid"
  reject (message.numRequiredSignatures < 1 ∨ message.numRequiredSignatures > staticKeys.length)
    "transaction_signers_invalid"
  reject (tx.signatures.length ≠ message.numRequiredSignatures) "transaction_signers_invalid"
  reject (message.compiledInstructions = []) "transaction_instructions_empty"
  let lookups := message.addressTableLookups.map fun l =>
    (⟨web3.base58 l.accountKey,l.writableIndexes,l.readonlyIndexes⟩ : DecodedAddressTableLookup)
  let lookedUp := (lookups.map fun l => l.writableIndexes.length + l.readonlyIndexes.length).sum
  let instructions ← message.compiledInstructions.mapM
    (decodeInstruction staticKeys (staticKeys.length + lookedUp))
  let messageBytes := web3.serializeMessage message
  return {
    feePayer, instructions, messageBytes
    version := message.version
    recentBlockhash := message.recentBlockhash
    numRequiredSignatures := message.numRequiredSignatures
    staticAccountKeys := staticKeys
    signatures := tx.signatures.map fun s => if emptySignature s then none else some (web3.base58 s)
    addressTableLookups := lookups
    messageBase64 := messageBytes.toBase64
    messageHash := sha256Hex web3 messageBytes
    wireBase64 := canonical.toBase64
    transaction := tx }

/-- The signature of a stored result is read back from JSON, where it may be missing. -/
structure SignResult where
  transaction : String
  signature : Option String
  deriving DecidableEq

/-- The signature goes into the fee payer's slot; every other slot stays as it is. -/
def attachSignature (decoded : DecodedTransaction) (signature : Bytes) : Except String SignResult := do
  reject (signature.length ≠ 64) "signature_invalid"
  let tx := { decoded.transaction with signatures := signature :: decoded.transaction.signatures.tail }
  let wire ← required (web3.serialize tx) "encoding overruns Uint8Array"
  return ⟨wire.toBase64,some (web3.base58 signature)⟩

/-- Read the base58 fee-payer signature off a signed wire transaction. -/
def signatureOf (wireBase64 : String) : Except String String := do
  let decoded ← decodeTransaction web3 wireBase64
  required (decoded.signatures.head?.join) "signature_missing"

/-- A decoded transaction names the wire string it came from and hashes its own message. -/
theorem decodeTransaction_wire {wire : String} {decoded : DecodedTransaction}
    (ok : decodeTransaction web3 wire = .ok decoded) :
    decoded.wireBase64 = wire ∧ decoded.messageHash = sha256Hex web3 decoded.messageBytes := by
  simp only [decodeTransaction,bind_eq_ok,reject_eq_ok,required_eq_ok,pure_eq_ok] at ok
  obtain ⟨_,_,_,encoding,tx,_,canonical,_,_,same,_,_,_,_,_,_,_,_,_,_,rfl⟩ := ok
  simp only [not_or,not_not] at encoding same
  exact ⟨same ▸ encoding.2,rfl⟩

/-- The base64 text of bytes that read as a transaction and are written back the same. -/
theorem decodeTransaction_toBase64 {raw : Bytes} {tx : VersionedTransaction} {feePayer : String}
    {keys : List String} {instructions : List DecodedInstruction} (some_ : raw ≠ [])
    (read : web3.deserialize raw = some tx) (written : web3.serialize tx = some raw)
    (named : tx.message.staticAccountKeys.map web3.base58 = keys) (payer : keys.head? = some feePayer)
    (signers : ¬(tx.message.numRequiredSignatures < 1 ∨ tx.message.numRequiredSignatures > keys.length))
    (signed : tx.signatures.length = tx.message.numRequiredSignatures)
    (work : tx.message.compiledInstructions ≠ [])
    (compiled : tx.message.compiledInstructions.mapM (decodeInstruction keys (keys.length +
      (tx.message.addressTableLookups.map fun l => l.writableIndexes.length + l.readonlyIndexes.length).sum)) =
        .ok instructions) :
    decodeTransaction web3 raw.toBase64 = .ok {
      feePayer, instructions
      messageBytes := web3.serializeMessage tx.message
      version := tx.message.version
      recentBlockhash := tx.message.recentBlockhash
      numRequiredSignatures := tx.message.numRequiredSignatures
      staticAccountKeys := keys
      signatures := tx.signatures.map fun s => if emptySignature s then none else some (web3.base58 s)
      addressTableLookups := tx.message.addressTableLookups.map fun l =>
        (⟨web3.base58 l.accountKey,l.writableIndexes,l.readonlyIndexes⟩ : DecodedAddressTableLookup)
      messageBase64 := (web3.serializeMessage tx.message).toBase64
      messageHash := sha256Hex web3 (web3.serializeMessage tx.message)
      wireBase64 := raw.toBase64
      transaction := tx } := by
  subst named
  simp only [decodeTransaction,bind_eq_ok,reject_eq_ok,required_eq_ok,pure_eq_ok,Bytes.ofBase64_toBase64]
  refine ⟨(),Bytes.toBase64_ne_empty some_,(),by simp [some_],tx,read,raw,written,(),by simp,feePayer,payer,
    (),signers,(),by simp [signed],(),work,instructions,?_,rfl⟩
  simpa [List.map_map,Function.comp_def] using compiled

end Decoder

/-! Two transactions that differ in one byte of instruction data, as the libraries read
and write them. -/
namespace Sample

def payer : Bytes := List.replicate 32 1

def program : Bytes := List.replicate 32 0

def signature : Bytes := List.replicate 64 7

def message (data : UInt8) : Message where
  version := none
  numRequiredSignatures := 1
  staticAccountKeys := [payer,program]
  recentBlockhash := "CktRuQ2mttgRGkXJtyksdKHjUdc2C4TgDzyB98oEzy8"
  compiledInstructions := [⟨1,[0],[data]⟩]
  addressTableLookups := []

def messageBytes (data : UInt8) : Bytes :=
  [1,0,1,2] ++ payer ++ program ++ List.replicate 32 3 ++ [1,1,1,0,1,data]

def wire (signature : Bytes) (data : UInt8) : Bytes := 1 :: signature ++ messageBytes data

def messageHash : String := "0xffc9fbcdb2a858d4026fa7b68a7e3be59982049959ae76ec10009619206f25da"

def base58Signature : String :=
  "99eUso3aSbE9tqGSTXzo3TLfKb9RkMTURrHKQ1K7Zh3BbeqPevr5E1iCbpTjqHuTFLtfxTTD5ekfVuZFzQyEQf8"

def web3 : Web3 where
  deserialize bytes :=
    if bytes = wire signature 1 then some ⟨[signature],message 1⟩
    else if bytes = wire signature 2 then some ⟨[signature],message 2⟩
    else none
  serialize tx :=
    if tx = ⟨[signature],message 1⟩ then some (wire signature 1)
    else if tx = ⟨[signature],message 2⟩ then some (wire signature 2)
    else none
  serializeMessage m := if m = message 1 then messageBytes 1 else messageBytes 2
  base58 bytes :=
    if bytes = payer then "4vJ9JU1bJJE96FWSJKvHsmmFADCg4gpZQff4P3bkLKi"
    else if bytes = program then "11111111111111111111111111111111"
    else base58Signature
  sha256 bytes :=
    if bytes = messageBytes 1 then "ffc9fbcdb2a858d4026fa7b68a7e3be59982049959ae76ec10009619206f25da"
    else "476b6aad1886c2e529730efbd399a108008f3f1cdfaacb171bb66bf56c6a83f0"

def decoded (data : UInt8) : DecodedTransaction where
  version := none
  feePayer := "4vJ9JU1bJJE96FWSJKvHsmmFADCg4gpZQff4P3bkLKi"
  recentBlockhash := "CktRuQ2mttgRGkXJtyksdKHjUdc2C4TgDzyB98oEzy8"
  numRequiredSignatures := 1
  staticAccountKeys := ["4vJ9JU1bJJE96FWSJKvHsmmFADCg4gpZQff4P3bkLKi","11111111111111111111111111111111"]
  signatures := [some base58Signature]
  addressTableLookups := []
  instructions := [⟨"11111111111111111111111111111111",1,[0],[some "4vJ9JU1bJJE96FWSJKvHsmmFADCg4gpZQff4P3bkLKi"],
    [data],Bytes.toHex [data]⟩]
  messageBytes := messageBytes data
  messageBase64 := (messageBytes data).toBase64
  messageHash := if data = 1 then messageHash else "0x476b6aad1886c2e529730efbd399a108008f3f1cdfaacb171bb66bf56c6a83f0"
  wireBase64 := (wire signature data).toBase64
  transaction := ⟨[signature],message data⟩

theorem decodes {data : UInt8} (known : data = 1 ∨ data = 2) :
    decodeTransaction web3 (wire signature data).toBase64 = .ok (decoded data) := by
  have keys : (message data).staticAccountKeys.map web3.base58 = (decoded data).staticAccountKeys := by
    change [payer,program].map web3.base58 = (decoded 1).staticAccountKeys
    decide +kernel
  have compiled : (message data).compiledInstructions.mapM (decodeInstruction (decoded data).staticAccountKeys 2) =
      .ok (decoded data).instructions := rfl
  have read : web3.deserialize (wire signature data) = some ⟨[signature],message data⟩ := by
    obtain rfl | rfl := known <;> decide +kernel
  have written : web3.serialize ⟨[signature],message data⟩ = some (wire signature data) := by
    obtain rfl | rfl := known <;> decide +kernel
  have bytes : web3.serializeMessage (message data) = messageBytes data := by
    obtain rfl | rfl := known <;> decide +kernel
  have hashed : sha256Hex web3 (messageBytes data) = (decoded data).messageHash := by
    obtain rfl | rfl := known <;> decide +kernel
  have signed : (if emptySignature signature then none else some (web3.base58 signature)) = some base58Signature := by
    decide +kernel
  have nonempty : wire signature data ≠ [] := List.cons_ne_nil _ _
  rw [decodeTransaction_toBase64 web3 nonempty read written keys rfl (by simp [message,decoded]) rfl
    (List.cons_ne_nil _ _) compiled]
  simp only [bytes,hashed,List.map_singleton,signed]
  rfl

end Sample

end RatifyOs.Signer
