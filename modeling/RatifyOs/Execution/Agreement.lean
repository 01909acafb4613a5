import RatifyOs.Execution.Alike
import RatifyOs.Execution.Issuer

/-! The issuer and the verifier agree: what one signs, the other accepts after a round trip
through JSON, and for the transaction it was issued for only. -/
namespace RatifyOs.Execution
open Async Data RatifyOs.Signer RatifyOs.Signer.SignerWireVerifier
open Data.Result (bind_eq_ok reject_eq_ok required_eq_ok)
open Async.Program hiding pure throw

section Claims
variable (locale : Signer.Locale) (c : AuthorizationClaims)

private theorem lookup_optionalText (key : String) (value : Option String) (k : String) :
    (optionalText key value).lookup k = if k = key then value.map .str else none := by
  cases value with
  | none => simp [optionalText]
  | some value =>
    unfold optionalText
    rw [List.lookup_cons]
    by_cases same : k = key
    · simp [same]
    · simp [same,beq_eq_false_iff_ne.mpr same]

private theorem property_claims :
    property "protocol" c.json = some (.str c.protocol) ∧ property "version" c.json = some (.num c.version) ∧
      property "issuedAt" c.json = some (.num c.issuedAt) ∧ property "expiresAt" c.json = some (.num c.expiresAt) := by
  simp [AuthorizationClaims.json,property,List.lookup_append,lookup_optionalText,List.lookup_cons]

private theorem property_references :
    property "audience" c.json = some (.str c.references.audience) ∧
      property "signerKeyId" c.json = c.signerKeyId.map .str ∧
      property "policyHash" c.json = some (.str c.references.policyHash) ∧
      property "policyVersion" c.json = some (.num c.references.policyVersion) := by
  simp [AuthorizationClaims.json,property,List.lookup_append,lookup_optionalText,List.lookup_cons,List.lookup_nil]

private theorem property_transaction :
    property "transaction" c.json = some (.str c.transaction) ∧ property "message" c.json = some (.str c.message) ∧
      property "messageHash" c.json = some (.str c.messageHash) ∧ property "feePayer" c.json = some (.str c.feePayer) ∧
      property "recentBlockhash" c.json = some (.str c.recentBlockhash) ∧
      property "accountKeys" c.json = some (.strings c.accountKeys) ∧
      property "programIds" c.json = some (.strings c.programIds) ∧
      property "addressTableLookups" c.json = some (.strings c.addressTableLookups) ∧
      property "instructions" c.json = some (.arr (c.instructions.map InstructionSummary.json)) := by
  simp [AuthorizationClaims.json,property,List.lookup_append,lookup_optionalText,List.lookup_cons]

private theorem property_cluster : property "cluster" c.json = some (.str c.cluster) ∧
    property "lastValidBlockHeight" c.json = some (.num c.lastValidBlockHeight) := by
  simp [AuthorizationClaims.json,property,List.lookup_append,lookup_optionalText,List.lookup_cons]

/-- The JSON value says what the claims say, as far as the verifier can tell. -/
structure Carried (json : Json) : Prop where
  canonical : canonicalClaims locale json = canonicalClaims locale c.json
  fields : ∀ key, (property key json).map (normalize locale.localeCompare) =
    (property key c.json).map (normalize locale.localeCompare)

variable {locale c} {json : Json}

private theorem eq_str {v : Json} {s : String} (same : normalize locale.localeCompare v = .str s) : v = .str s := by
  cases v <;> simp [normalize] at same ⊢
  exact same

private theorem eq_num {v : Json} {n : ℤ} (same : normalize locale.localeCompare v = .num n) : v = .num n := by
  cases v <;> simp [normalize] at same ⊢
  exact same

private theorem Carried.str (carried : Carried locale c json) {key s : String}
    (has : property key c.json = some (.str s)) :
    property key json = some (.str s) := by
  have same := carried.fields key
  rw [has] at same
  obtain ⟨v,found,normal⟩ := Option.map_eq_some_iff.mp same
  rw [found,eq_str normal]

private theorem Carried.num (carried : Carried locale c json) {key : String} {n : ℤ}
    (has : property key c.json = some (.num n)) :
    property key json = some (.num n) := by
  have same := carried.fields key
  rw [has] at same
  obtain ⟨v,found,normal⟩ := Option.map_eq_some_iff.mp same
  rw [found,eq_num normal]

private theorem Carried.none (carried : Carried locale c json) {key : String}
    (has : property key c.json = none) : property key json = none := by
  have same := carried.fields key
  rw [has] at same
  exact Option.map_eq_none_iff.mp same

private theorem Carried.eq (carried : Carried locale c json) {key : String} {v : Json}
    (has : property key c.json = some v) :
    SignerWireVerifier.eq locale (property key json) v = true := by
  have same := carried.fields key
  rw [has] at same
  obtain ⟨w,found,normal⟩ := Option.map_eq_some_iff.mp same
  rw [found]
  simp [SignerWireVerifier.eq,normal]

end Claims

/-- The verifier is set up as the issuer is, for this request and these references. -/
structure Configured (c : Issuer) (r : SimulationRequest) (refs : IssuedReferences) (v : WireVerifier) : Prop where
  audience : v.audience = refs.audience
  cluster : ∀ cluster ∈ v.cluster, cluster = r.cluster
  key : ∀ id, present v.signerKeyId = some id → present c.signerKeyId = some id
  keys : ∀ ids ∈ v.authorizationKeyIds, ∃ id ∈ present c.signerKeyId, id ∈ ids
  policyHash : ∀ hash, present v.policyHash = some hash → hash = refs.policyHash
  policyVersion : ∀ version ∈ v.policyVersion, version = refs.policyVersion
  mac : ∀ text, v.verifier text (some (.str (c.sign text))) (((present c.signerKeyId).or refs.signerKeyId).map .str) = true
  ttl : c.ttlMs.getD 30000 ≤ v.maxTtlMs.getD 60000

section Accept
variable {web3 : Web3} {locale : Signer.Locale} {c : Issuer} {r : SimulationRequest} {e : SimulationEvidence}
  {refs : IssuedReferences} {v : WireVerifier} {id : String} {issuedAt now : ℤ} {json : Json}
  (carried : Carried locale (AuthorizationIssuer.claims c r e refs id issuedAt) json)
include carried

private theorem current_iff (configured : Configured c r refs v) (started : issuedAt ≤ now)
    (fresh : now < issuedAt + c.ttlMs.getD 30000) :
    assertCurrent v now json = .ok () ↔ SafeInteger issuedAt ∧ SafeInteger (issuedAt + c.ttlMs.getD 30000) := by
  obtain ⟨protocol,version,issued,expires⟩ := property_claims (AuthorizationIssuer.claims c r e refs id issuedAt)
  have short := configured.ttl
  simp only [assertCurrent,bind_eq_ok,reject_eq_ok,required_eq_ok,carried.str protocol,carried.num version,
    carried.num issued,carried.num expires,Option.bind_some,textOf,numberOf,safeInteger]
  constructor
  · intro passed
    obtain ⟨_,_,a,first,b,second,_⟩ := passed
    obtain ⟨same,safe⟩ := Option.filter_eq_some_iff.mp first
    obtain ⟨same',safe'⟩ := Option.filter_eq_some_iff.mp second
    cases Option.some.inj same
    cases Option.some.inj same'
    exact ⟨of_decide_eq_true safe,of_decide_eq_true safe'⟩
  · intro safe
    refine ⟨(),by simp [AuthorizationIssuer.claims],issuedAt,?_,issuedAt + c.ttlMs.getD 30000,?_,(),by omega,by omega⟩
    · exact Option.filter_eq_some_iff.mpr ⟨rfl,decide_eq_true safe.1⟩
    · exact Option.filter_eq_some_iff.mpr ⟨rfl,decide_eq_true safe.2⟩

private theorem configured_ok (configured : Configured c r refs v) : assertConfigured locale v json = .ok () := by
  obtain ⟨audience,signerKeyId,policyHash,policyVersion⟩ :=
    property_references (AuthorizationIssuer.claims c r e refs id issuedAt)
  have keyed : ∀ key, present c.signerKeyId = some key → (property "signerKeyId" json).bind textOf = some key := by
    intro key known
    have named : property "signerKeyId" (AuthorizationIssuer.claims c r e refs id issuedAt).json = some (.str key) := by
      rw [signerKeyId]
      simp [AuthorizationIssuer.claims,known]
    rw [carried.str named]
    rfl
  simp only [assertConfigured,bind_eq_ok,reject_eq_ok,carried.str audience,carried.num policyVersion,
    carried.str policyHash,Option.bind_some,textOf,numberOf]
  refine ⟨(),by simp [AuthorizationIssuer.claims,configured.audience],(),?_,false,?_,(),?_,?_⟩
  · cases wanted : present v.signerKeyId with
    | none => simp
    | some key => simp [keyed key (configured.key key wanted)]
  · cases wanted : present v.policyHash with
    | none => rfl
    | some hash =>
      rw [configured.policyHash hash wanted]
      simp [lowerDiffers,AuthorizationIssuer.claims]
  · cases wanted : v.policyVersion with
    | none => simp
    | some version =>
      rw [configured.policyVersion version wanted]
      simp [AuthorizationIssuer.claims]
  · cases wanted : v.authorizationKeyIds with
    | none => simp
    | some ids =>
      obtain ⟨key,known,listed⟩ := configured.keys ids wanted
      have there : key ≠ "" := (Data.present_eq_some.mp known).2
      simp [keyed key known,present,there,listed]

private theorem transaction_ok {d : DecodedTransaction} {cluster policyHash : String} {height : ℕ}
    (projected : r = simulationRequestOf d cluster height policyHash) : assertTransaction locale json d = .ok () := by
  obtain ⟨transaction,message,messageHash,feePayer,recentBlockhash,accountKeys,programIds,tables,instructions⟩ :=
    property_transaction (AuthorizationIssuer.claims c r e refs id issuedAt)
  subst projected
  simp only [assertTransaction,bind_eq_ok,reject_eq_ok,carried.str transaction,carried.str message,
    carried.str messageHash,carried.str feePayer,carried.str recentBlockhash,Option.bind_some,textOf]
  refine ⟨(),by simp [AuthorizationIssuer.claims,simulationRequestOf],false,?_,?_⟩
  · simp [lowerDiffers,AuthorizationIssuer.claims,simulationRequestOf]
  · have same : (AuthorizationIssuer.claims c (simulationRequestOf d cluster height policyHash) e refs id
        issuedAt).instructions.map InstructionSummary.json = d.instructions.map instructionClaim := by
      simp [AuthorizationIssuer.claims,simulationRequestOf,InstructionSummary.json,instructionClaim]
    rw [same] at instructions
    simp only [not_or]
    refine ⟨by simp,?_,?_,ne_false_of_eq_true (carried.eq accountKeys),ne_false_of_eq_true (carried.eq programIds),
      ne_false_of_eq_true (carried.eq tables),ne_false_of_eq_true (carried.eq instructions)⟩
    · simp [AuthorizationIssuer.claims,simulationRequestOf]
    · simp [AuthorizationIssuer.claims,simulationRequestOf]

private theorem verify_iff (configured : Configured c r refs v) {d : DecodedTransaction} {cluster policyHash wire : String}
    {height : ℕ} (decoded : decodeTransaction web3 wire = .ok d)
    (projected : r = simulationRequestOf d cluster height policyHash) (safe : SafeInteger height) {envelope : Json}
    (claimed : property "claims" envelope = some json) (object : isObject json = true)
    (signed : property "signature" envelope =
      some (.str (c.sign (canonicalClaims locale (AuthorizationIssuer.claims c r e refs id issuedAt).json))))
    (started : issuedAt ≤ now) (fresh : now < issuedAt + c.ttlMs.getD 30000) :
    verify web3 locale v now wire envelope = .ok d ↔
      SafeInteger issuedAt ∧ SafeInteger (issuedAt + c.ttlMs.getD 30000) := by
  obtain ⟨named,valid⟩ := property_cluster (AuthorizationIssuer.claims c r e refs id issuedAt)
  obtain ⟨_,signerKeyId,_⟩ := property_references (AuthorizationIssuer.claims c r e refs id issuedAt)
  rw [← current_iff carried configured started fresh]
  simp only [verify,decoded,bind_eq_ok,reject_eq_ok,required_eq_ok,claimed,Option.filter_eq_some_iff]
  constructor
  · intro passed
    obtain ⟨_,_,_,⟨same,_⟩,_,current,_⟩ := passed
    cases same
    exact current
  · intro current
    have key : property "signerKeyId" json = ((present c.signerKeyId).or refs.signerKeyId).map .str := by
      cases chosen : (present c.signerKeyId).or refs.signerKeyId with
      | none =>
        refine carried.none (signerKeyId.trans ?_)
        simp [AuthorizationIssuer.claims,chosen]
      | some key =>
        refine carried.str (signerKeyId.trans ?_)
        simp [AuthorizationIssuer.claims,chosen]
    refine ⟨d,rfl,json,⟨rfl,object⟩,(),current,(),configured_ok carried configured,(),?_,(),?_,(),?_,(),
      transaction_ok carried projected,rfl⟩
    · rw [carried.canonical,signed,key]
      simp [configured.mac]
    · cases wanted : v.cluster with
      | none => simp
      | some cluster =>
        rw [configured.cluster cluster wanted]
        simp [carried.str named,textOf,AuthorizationIssuer.claims]
    · rw [carried.num valid]
      subst projected
      simp [safeInteger,numberOf,AuthorizationIssuer.claims,simulationRequestOf,safe]

private theorem verify_other {d d' : DecodedTransaction} {cluster policyHash wire wire' : String} {height : ℕ}
    (decoded : decodeTransaction web3 wire = .ok d) (projected : r = simulationRequestOf d cluster height policyHash)
    (decoded' : decodeTransaction web3 wire' = .ok d') (other : d' ≠ d) {envelope : Json}
    (claimed : property "claims" envelope = some json) (answer : DecodedTransaction) :
    verify web3 locale v now wire' envelope ≠ .ok answer := by
  obtain ⟨transaction,_⟩ := property_transaction (AuthorizationIssuer.claims c r e refs id issuedAt)
  simp only [verify,assertTransaction,decoded',bind_eq_ok,reject_eq_ok,required_eq_ok,claimed,
    Option.filter_eq_some_iff,Ne]
  intro passed
  obtain ⟨_,same,_,⟨here,_⟩,_,_,_,_,_,_,_,_,_,_,_,⟨_,agrees,_⟩,_⟩ := passed
  cases same
  cases here
  subst projected
  rw [carried.str transaction] at agrees
  have bytes : d.wireBase64 = d'.wireBase64 := by
    by_contra differs
    exact agrees (.inl fun same => differs (Option.some.inj same))
  rw [(decodeTransaction_wire web3 decoded).1,(decodeTransaction_wire web3 decoded').1] at bytes
  subst bytes
  rw [decoded] at decoded'
  exact other (Except.ok.inj decoded').symm

end Accept

section Issue
variable {web3 : Web3} {sha256 : Text → String} {locale : Signer.Locale} {c : Issuer} {r : SimulationRequest}
  {e : SimulationEvidence} {refs : IssuedReferences}

private theorem any_wp {α : Type} (p : Issuing α) (h : History IssuerOp IssuerOp.Ans String) :
    p.wp (fun _ _ => True) (fun _ _ => True) (fun _ _ => True) h := by
  induction p generalizing h with
  | pure value => trivial
  | throw error => trivial
  | perform op next ih => exact ⟨trivial,fun answer => ih answer _⟩

variable (web3 sha256 locale c r e refs) in
/-- What the issuer returns, and which reading of its clock is on it. -/
def Issued (envelope : AuthorizationEnvelope) (h : History IssuerOp IssuerOp.Ans String) : Prop :=
  AuthorizationIssuer.assertBound web3 sha256 locale c r e refs = .ok () ∧ ∃ id issuedAt, ⟨.now,.ok issuedAt⟩ ∈ h ∧
    envelope = ⟨AuthorizationIssuer.claims c r e refs id issuedAt,
      c.sign (canonicalClaims locale (AuthorizationIssuer.claims c r e refs id issuedAt).json)⟩

private theorem issue_wp (h : History IssuerOp IssuerOp.Ans String) :
    (AuthorizationIssuer.issue web3 sha256 locale c r e refs).wp (fun _ _ => True)
      (Issued web3 sha256 locale c r e refs) (fun _ _ => True) h := by
  unfold AuthorizationIssuer.issue
  simp only [wp_bind,wp_ofExcept,implies_true,and_true]
  intro u bound
  refine wp_mono _ (any_wp _ _) (fun start h _ => ?_) fun _ _ _ => trivial
  rw [wp_bind]
  refine wp_mono _ (any_wp _ _) (fun _ h _ => ?_) fun _ _ _ => trivial
  rw [wp_bind]
  refine wp_mono _ (any_wp _ _) (fun again h _ => ?_) fun _ _ _ => trivial
  simp only [wp_bind,wp_reject,wp_call,wp_ite,wp_pure,implies_true,and_true,true_and]
  intro _ issuedAt id
  constructor
  · exact fun _ _ _ => ⟨bound,id,issuedAt,by simp,rfl⟩
  · exact fun _ _ => ⟨bound,id,issuedAt,by simp,rfl⟩

theorem issued_of_ran {h : History IssuerOp IssuerOp.Ans String} {envelope : AuthorizationEnvelope}
    (ran : Ran (AuthorizationIssuer.issue web3 sha256 locale c r e refs) h (.pure envelope)) :
    Issued web3 sha256 locale c r e refs envelope h := ran.wp (issue_wp [])

end Issue

section Carry

def claimKeys : List String :=
  ["quoteHash","policyHash","policyVersion"] ++ ["riskHash"] ++ ["reservationId"] ++ ["approvalId","audience"] ++
    ["signerKeyId"] ++ ["protocol","version","id","cluster","feePayer","transaction","message","messageHash",
    "recentBlockhash","lastValidBlockHeight","programIds","accountKeys","instructions","addressTableLookups",
    "simulationHash","issuedAt","expiresAt"]

/-- The keys of an envelope, its claims and the instructions in them. -/
def wireKeys : List String := claimKeys ++ ["claims","signature","programId","accounts","data"]

private theorem known_strings (values : List String) : Known wireKeys (.strings values) := by
  refine knownItems_iff.mpr fun v member => ?_
  obtain ⟨s,_,rfl⟩ := List.mem_map.mp member
  trivial

private theorem known_instruction (i : InstructionSummary) : Known wireKeys i.json := by
  have distinct : ["programId","accounts","data"].Nodup := by decide
  have listed : ∀ key ∈ ["programId","accounts","data"], key ∈ wireKeys := by decide
  refine ⟨distinct,listed,trivial,?_,trivial,trivial⟩
  refine knownItems_iff.mpr fun v member => ?_
  obtain ⟨account,_,rfl⟩ := List.mem_map.mp member
  cases account <;> trivial

private theorem known_instructions (instructions : List InstructionSummary) :
    Known wireKeys (.arr (instructions.map InstructionSummary.json)) := by
  refine knownItems_iff.mpr fun v member => ?_
  obtain ⟨i,_,rfl⟩ := List.mem_map.mp member
  exact known_instruction i

private theorem optional_keys (key : String) (value : Option String) :
    ((optionalText key value).map (·.1)).Sublist [key] := by
  cases value <;> simp [optionalText]

private theorem known_optional (key : String) (value : Option String) : KnownFields wireKeys (optionalText key value) := by
  cases value with
  | none => trivial
  | some value => exact ⟨trivial,trivial⟩

private theorem knownFields_append {fields fields' : List (String × Json)} (first : KnownFields wireKeys fields)
    (second : KnownFields wireKeys fields') : KnownFields wireKeys (fields ++ fields') := by
  rw [knownFields_iff] at *
  exact List.forall_mem_append.mpr ⟨first,second⟩

private theorem known_claims (c : AuthorizationClaims) : Known wireKeys c.json := by
  have within : ∀ fields : List (String × Json), (fields.map (·.1)).Sublist claimKeys → KnownFields wireKeys fields →
      Known wireKeys (.obj fields) := by
    intro fields sub known
    have distinct : claimKeys.Nodup := by decide
    exact ⟨sub.nodup distinct,fun key member => List.mem_append_left _ (sub.subset member),known⟩
  refine within _ ?_ ?_
  · simp only [List.map_append]
    refine .append (.append (.append (.append (.append ?_ (optional_keys _ _)) (optional_keys _ _)) ?_)
      (optional_keys _ _)) ?_
    · exact .refl _
    · exact .refl _
    · exact .refl _
  · refine knownFields_append (knownFields_append (knownFields_append (knownFields_append (knownFields_append ?_
      (known_optional _ _)) (known_optional _ _)) ?_) (known_optional _ _)) ?_
    · exact ⟨trivial,trivial,trivial,trivial⟩
    · exact ⟨trivial,trivial,trivial⟩
    · simp only [KnownFields,known_strings,known_instructions,and_true]
      trivial

theorem known_envelope (e : AuthorizationEnvelope) : Known wireKeys e.json := by
  have distinct : ["claims","signature"].Nodup := by decide
  have listed : ∀ key ∈ ["claims","signature"], key ∈ wireKeys := by decide
  exact ⟨distinct,listed,known_claims e.claims,trivial,trivial⟩

private theorem carried_of_alike {locale : Signer.Locale} (orders : Orders locale.localeCompare wireKeys) {c : AuthorizationClaims}
    {json : Json} (alike : Alike json c.json) : Carried locale c json where
  canonical := congrArg stringify (normalize_alike orders alike (known_claims c))
  fields key := property_normalize orders alike (known_claims c) key

private theorem str_of_alike {v : Json} {s : String} (alike : Alike v (.str s)) : v = .str s := by
  cases v with
  | str value =>
    cases alike
    rfl
  | _ => cases alike

private theorem object_of_alike {v : Json} {fields : List (String × Json)} (alike : Alike v (.obj fields)) :
    isObject v = true := by
  cases v with
  | obj _ => rfl
  | _ => cases alike

end Carry

/-- What was issued for a request that was built from these bytes is accepted for them, by a
verifier set up alike and at any time it is good for, exactly when both its times are safe
integers; for bytes that decode to another transaction no verifier accepts it. The order of
the keys may change on the way. -/
theorem issuer_verifier_agree (web3 : Web3) (sha256 : Text → String) (locale : Signer.Locale)
    (orders : Orders locale.localeCompare wireKeys) (c : Issuer) (t : PreparedTransaction) (policyHash : String)
    (r : SimulationRequest) (built : buildSimulationRequest web3 t policyHash = .ok r) (e : SimulationEvidence)
    (refs : IssuedReferences) (h : History IssuerOp IssuerOp.Ans String) (envelope : AuthorizationEnvelope)
    (ran : Ran (AuthorizationIssuer.issue web3 sha256 locale c r e refs) h (.pure envelope)) :
    Json.parse (stringify envelope.json) = some envelope.json ∧ ∀ json, Alike json envelope.json →
      ∃ d, decodeTransaction web3 t.transaction = .ok d ∧
        (∀ v, Configured c r refs v → ∀ now, envelope.claims.issuedAt ≤ now → now < envelope.claims.expiresAt →
          (verify web3 locale v now t.transaction json = .ok d ↔
            SafeInteger envelope.claims.issuedAt ∧ SafeInteger envelope.claims.expiresAt)) ∧
        ∀ v now wire d', decodeTransaction web3 wire = .ok d' → d' ≠ d → ∀ answer,
          verify web3 locale v now wire json ≠ .ok answer := by
  obtain ⟨_,id,issuedAt,_,rfl⟩ := issued_of_ran ran
  refine ⟨parse_stringify (distinct_of_known _ (known_envelope _)),fun json alike => ?_⟩
  simp only [buildSimulationRequest,bind_eq_ok,reject_eq_ok,Data.Result.pure_eq_ok] at built
  obtain ⟨_,safe,_,_,d,decoded,projected⟩ := built
  obtain ⟨claims,claimed,same⟩ := has_of_alike alike (known_envelope _) (rfl : property "claims" _ = _)
  obtain ⟨signature,signed,written⟩ := has_of_alike alike (known_envelope _) (rfl : property "signature" _ = _)
  cases str_of_alike written
  have carried := carried_of_alike orders same
  refine ⟨d,decoded,fun v configured now started fresh => ?_,fun v now wire d' decoded' other answer => ?_⟩
  · refine verify_iff carried configured decoded projected.symm ?_ claimed (object_of_alike same) signed started fresh
    have positive : 0 ≤ t.lastValidBlockHeight := by
      by_contra negative
      exact safe (.inr (by omega))
    have bounded : SafeInteger t.lastValidBlockHeight := by
      by_contra unsafe_
      exact safe (.inl unsafe_)
    rwa [Int.toNat_of_nonneg positive]
  · exact verify_other carried decoded projected.symm decoded' other claimed answer

namespace Sample

/-- On these keys the locale orders as the code units do. -/
def locale : Signer.Locale where
  localeCompare a b := if codeUnits a = codeUnits b then 0 else if codeUnits a ≤ codeUnits b then -1 else 1
  toLowerCase := String.toLower

def prepared : PreparedTransaction := ⟨"mainnet-beta",(Signer.Sample.wire Signer.Sample.signature 1).toBase64,100⟩

def result : SimulationResult where
  messageHash := Signer.Sample.messageHash
  slot := 7
  blockhash := "CktRuQ2mttgRGkXJtyksdKHjUdc2C4TgDzyB98oEzy8"
  unitsConsumed := 150
  feeLamports := 5000
  logs := []
  accountStates := []
  assetDeltas := []
  capabilities := ⟨true,true,true,true⟩

/-- The digest of the evidence, the only text that is hashed here. -/
def sha256 (_ : Text) : String := "0x41ae2397d33b5a09527c742ca9b13048ac7daa426fb6aca351f70bb6ef0353e0"

/-- The keyed digest of the claims, the only text that is signed with this time to live. -/
def mac (ttlMs : ℤ) (_ : Text) : String :=
  if ttlMs = 30000 then "fe8a5a620dd5627ded3e03192302ed27554990596502519b68117bf70957c00f"
  else "337dbefc6718f11339702221cbd8d96663f9ffba50cc8f16f592a10ef2558bc0"

def references : IssuedReferences where
  quoteHash := "quote"
  policyHash := "policy"
  policyVersion := 1
  riskHash := some "risk"
  reservationId := some "reservation"
  approvalId := "approval"
  audience := "signer"
  signerKeyId := none

def issuer (ttlMs : ℤ) : Issuer where
  snapshotVersion := false
  consumeApprovalReservation := true
  signerKeyId := some "key"
  ttlMs := some ttlMs
  maxTtlMs := some ttlMs
  sign := mac ttlMs

def verifier (maxTtlMs : ℤ) : WireVerifier where
  verifier text signature key := signature.bind textOf = some (mac maxTtlMs text) ∧ key.bind textOf = some "key"
  audience := "signer"
  cluster := some "mainnet-beta"
  signerKeyId := some "key"
  authorizationKeyIds := some ["key"]
  policyHash := some "policy"
  policyVersion := some 1
  maxTtlMs := some maxTtlMs

def reply (now : ℤ) : (op : IssuerOp) → Except String op.Ans
  | .snapshotVersion => .ok "1"
  | .quote _ => .ok true
  | .policy _ => .ok true
  | .risk _ => .ok true
  | .reservation _ => .ok true
  | .approval _ => .ok true
  | .simulation _ => .ok true
  | .blockhash _ => .ok (.height (some 50))
  | .now => .ok now
  | .randomUUID => .ok "authorization"
  | .consumeApprovalReservation _ _ _ => .ok true

def request : SimulationRequest where
  cluster := "mainnet-beta"
  transaction := (Signer.Sample.wire Signer.Sample.signature 1).toBase64
  message := (Signer.Sample.messageBytes 1).toBase64
  messageHash := Signer.Sample.messageHash
  feePayer := "4vJ9JU1bJJE96FWSJKvHsmmFADCg4gpZQff4P3bkLKi"
  recentBlockhash := "CktRuQ2mttgRGkXJtyksdKHjUdc2C4TgDzyB98oEzy8"
  lastValidBlockHeight := 100
  programIds := ["11111111111111111111111111111111"]
  accountKeys := ["4vJ9JU1bJJE96FWSJKvHsmmFADCg4gpZQff4P3bkLKi","11111111111111111111111111111111"]
  instructions := [⟨"11111111111111111111111111111111",[some "4vJ9JU1bJJE96FWSJKvHsmmFADCg4gpZQff4P3bkLKi"],"01"⟩]
  addressTableLookups := []
  policyHash := "policy"

def evidence : SimulationEvidence where
  hash := "0x41ae2397d33b5a09527c742ca9b13048ac7daa426fb6aca351f70bb6ef0353e0"
  messageHash := result.messageHash
  slot := result.slot
  blockhash := result.blockhash
  unitsConsumed := result.unitsConsumed
  feeLamports := result.feeLamports
  logs := result.logs
  accountStates := result.accountStates
  assetDeltas := result.assetDeltas
  capabilities := result.capabilities

def issuing (ttlMs : ℤ) : Issuing AuthorizationEnvelope :=
  AuthorizationIssuer.issue Signer.Sample.web3 sha256 locale (issuer ttlMs) request evidence references

def envelope (ttlMs now : ℤ) : AuthorizationEnvelope :=
  let claims := AuthorizationIssuer.claims (issuer ttlMs) request evidence references "authorization" now
  ⟨claims,mac ttlMs (canonicalClaims locale claims.json)⟩

def decoded : DecodedTransaction where
  version := none
  feePayer := request.feePayer
  recentBlockhash := request.recentBlockhash
  numRequiredSignatures := 1
  staticAccountKeys := request.accountKeys
  signatures := [some Signer.Sample.base58Signature]
  addressTableLookups := []
  instructions := [⟨"11111111111111111111111111111111",1,[0],[some "4vJ9JU1bJJE96FWSJKvHsmmFADCg4gpZQff4P3bkLKi"],[1],
    "01"⟩]
  messageBytes := Signer.Sample.messageBytes 1
  messageBase64 := request.message
  messageHash := request.messageHash
  wireBase64 := request.transaction
  transaction := ⟨[Signer.Sample.signature],Signer.Sample.message 1⟩

theorem decoded_eq : decodeTransaction Signer.Sample.web3 prepared.transaction = .ok decoded := by
  rw [prepared,Signer.Sample.decodes (.inl rfl)]
  rfl

theorem built : buildSimulationRequest Signer.Sample.web3 prepared "policy" = .ok request ∧
    createSimulationEvidence sha256 locale request result = .ok evidence := by
  constructor
  · rw [buildSimulationRequest,decoded_eq]
    rfl
  · have same : result.messageHash = request.messageHash := rfl
    simp only [createSimulationEvidence,Data.Result.reject,same,ne_eq,not_true_eq_false,if_false]
    rfl

private theorem localeCompare_iff {a b : String} : locale.localeCompare a b ≤ 0 ↔ codeUnits a ≤ codeUnits b := by
  unfold locale
  dsimp only
  split
  · rename_i same
    simp [same]
  · split <;> simp_all

theorem orders : Orders locale.localeCompare wireKeys where
  total a b := by
    simp only [localeCompare_iff]
    exact le_total _ _
  trans a b c := by
    simp only [localeCompare_iff]
    exact le_trans
  apart := by
    simp only [localeCompare_iff]
    have distinct : (wireKeys.map codeUnits).Nodup := by decide +kernel
    exact fun a first b second up down => List.inj_on_of_nodup_map distinct first second (le_antisymm up down)

theorem configured (ttlMs : ℤ) (r : SimulationRequest) (cluster : r.cluster = "mainnet-beta") :
    Configured (issuer ttlMs) r references (verifier ttlMs) where
  audience := rfl
  cluster _ same := by
    cases same
    exact cluster.symm
  key _ same := same
  keys _ same := by
    cases same
    exact ⟨"key",rfl,by simp⟩
  policyHash _ same := by
    cases same
    rfl
  policyVersion _ same := by
    cases same
    rfl
  mac text := by
    have key : (present (some "key")).or none = some "key" := rfl
    simp [verifier,issuer,textOf,references,key]
  ttl := le_rfl

theorem issued (ttlMs now : ℤ) (allowed : SafeInteger ttlMs ∧ 0 < ttlMs) :
    ∃ h, Ran (issuing ttlMs) h (.pure (envelope ttlMs now)) := by
  have bound : AuthorizationIssuer.assertBound Signer.Sample.web3 sha256 locale (issuer ttlMs) request evidence references =
      .ok () := by
    have projected : simulationRequestOf decoded request.cluster request.lastValidBlockHeight request.policyHash =
        request := rfl
    have hashed : evidence.hash = simulationEvidenceHash sha256 locale evidence.body := rfl
    have same : evidence.messageHash = request.messageHash := rfl
    have named : references.policyHash = request.policyHash := rfl
    have wire : decodeTransaction Signer.Sample.web3 request.transaction = .ok decoded := decoded_eq
    simp only [AuthorizationIssuer.assertBound,bind_eq_ok,reject_eq_ok,wire,hashed,same,named]
    refine ⟨(),?_,(),by simp,decoded,rfl,(),?_,by simp⟩
    · simp [issuer,allowed.1,allowed.2]
    · rw [projected]
      simp
  obtain ⟨h,ran⟩ := (Ran.start (issuing ttlMs)).next (reply now) 10
  have final : (issuing ttlMs).play (reply now) 10 = .pure (envelope ttlMs now) := by
    unfold issuing AuthorizationIssuer.issue
    rw [bound]
    rfl
  rw [final] at ran
  exact ⟨h,ran⟩

end Sample

open Sample in
/-- An authorization for thirty seconds is accepted after ten. -/
theorem issuer_verifier_agree_sample : ∃ d, verify Signer.Sample.web3 locale (verifier 30000) 1700000010000
    prepared.transaction (envelope 30000 1700000000000).json = .ok d := by
  obtain ⟨h,ran⟩ := issued 30000 1700000000000 (by decide)
  obtain ⟨_,agree⟩ := issuer_verifier_agree Signer.Sample.web3 sha256 locale orders (issuer 30000) prepared "policy"
    request built.1 evidence references h _ ran
  obtain ⟨d,_,accepted,_⟩ := agree _ rfl
  exact ⟨d,(accepted (verifier 30000) (configured 30000 request rfl) 1700000010000 (by decide) (by decide)).mpr (by decide)⟩

open Sample in
/-- With the longest time to live the issuer allows, the expiry is no safe integer: the
verifier refuses what the issuer has just issued. -/
theorem issued_refused :
    (∃ h, Ran (issuing 9007199254740991) h (.pure (envelope 9007199254740991 1700000000000))) ∧
      Configured (issuer 9007199254740991) request references (verifier 9007199254740991) ∧
      1700000000000 < (envelope 9007199254740991 1700000000000).claims.expiresAt ∧
      verify Signer.Sample.web3 locale (verifier 9007199254740991) 1700000000000 prepared.transaction
        (envelope 9007199254740991 1700000000000).json = .error "envelope_version_invalid" := by
  refine ⟨issued _ _ (by decide),configured _ request rfl,by decide,?_⟩
  rw [verify,decoded_eq]
  rfl

end RatifyOs.Execution
