import RatifyOs.Async.Exclusive
import RatifyOs.Signer.System

/-! One authorization, one signature: who may ask the account to sign, and what a caller
is given. -/
namespace RatifyOs.Signer
open Async Data RatifyOs.Execution
open Async.Program hiding pure throw

def signs (id : String) : Entry Op Op.Ans String → Bool
  | ⟨.signMessage name _,_⟩ => name = id
  | _ => false

def consumes : Entry Op Op.Ans String → Bool
  | ⟨.consume _ _,_⟩ => true
  | _ => false

/-- The verifier or the policy said no. -/
def rejects : Entry Op Op.Ans String → Bool
  | ⟨.verify _ _,.error _⟩ => true
  | ⟨.evaluatePolicy _,.error _⟩ => true
  | _ => false

/-- The call has claimed the authorization and has not signed for it. -/
def Armed (id : String) (h : Log) : Prop :=
  (∃ expiresAt, ⟨.consume id expiresAt,.ok true⟩ ∈ h) ∧ ∀ entry ∈ h, signs id entry = false

section Calls
variable (web3 : Web3) (toLowerCase : String → String) (c : SignerConfig)

/-- What is stored of a signature: of one message, which was decoded and signed. -/
def Stores (id : String) (data : Option RowData) (h : Log) : Prop :=
  ∃ transaction decoded raw signed lastValidBlockHeight, decodeTransaction web3 transaction = .ok decoded ∧
    ⟨.signMessage id decoded.messageBytes,.ok raw⟩ ∈ h ∧ attachSignature web3 decoded raw = .ok signed ∧
    data = some {
      requestHash := some decoded.messageHash
      transaction := some signed.transaction
      signature := signed.signature
      lastValidBlockHeight }

/-- The result carries the signature that was made for the authorization, over the message
with this hash. -/
def Authentic (id requestHash : String) (result : SignResult) (h : Log) : Prop :=
  ∃ transaction decoded raw, decodeTransaction web3 transaction = .ok decoded ∧
    ⟨.signMessage id decoded.messageBytes,.ok raw⟩ ∈ h ∧ attachSignature web3 decoded raw = .ok result ∧
    toLowerCase decoded.messageHash = toLowerCase requestHash

/-- Signing follows the claim, storing follows the signing, and nothing follows a rejection. -/
def orderly (h : Log) (op : Op) : Prop :=
  (∀ entry ∈ h, rejects entry = false) ∧
  match op with
  | .signMessage id _ => Armed id h
  | .transition id _ .signed data => Stores web3 id data h
  | .verify _ _ => ∀ entry ∈ h, consumes entry = false
  | .evaluatePolicy _ => ∀ entry ∈ h, consumes entry = false
  | _ => True

theorem armed_cons {id : String} {h : Log} {entry : Entry Op Op.Ans String} (armed : Armed id h)
    (quiet : signs id entry = false) : Armed id (entry :: h) := by
  obtain ⟨⟨expiresAt,claimed⟩,unsigned⟩ := armed
  exact ⟨⟨expiresAt,List.mem_cons_of_mem _ claimed⟩,by simpa using ⟨quiet,unsigned⟩⟩

/-- Nothing has been rejected, and the authorization is the call's to sign for. -/
def Ready (id : String) (h : Log) : Prop := (∀ entry ∈ h, rejects entry = false) ∧ Armed id h

private theorem Ready.cons {id : String} {h : Log} {entry : Entry Op Op.Ans String} (ready : Ready id h)
    (accepted : rejects entry = false) (quiet : signs id entry = false) : Ready id (entry :: h) :=
  ⟨by simpa using ⟨accepted,ready.1⟩,armed_cons ready.2 quiet⟩

def Orderly {α : Type} (p : Signing α) (Q : α → Log → Prop) (h : Log) : Prop :=
  p.wp (orderly web3) Q (fun _ _ => True) h

private theorem fence_orderly (id : String) (lastValidBlockHeight : Option ℤ) (h : Log) (ready : Ready id h) :
    Orderly web3 (fenceBlockhash c id lastValidBlockHeight) (fun _ => Ready id) h := by
  cases lastValidBlockHeight with
  | none => exact ready
  | some limit =>
    have next (answer : Except String (Option ℤ)) : Ready id (⟨.blockHeight,answer⟩ :: h) := ready.cons rfl rfl
    simp only [Orderly,fenceBlockhash,wp_ite,wp_bind,wp_call,wp_ofOption,wp_pure,wp_throw,orderly,implies_true,and_true]
    refine ⟨fun _ => ⟨ready.1,?_⟩,fun _ => ready⟩
    intro height limit' _
    exact ⟨fun _ => next _,fun _ => (next (.ok height)).1⟩

/-- A signature that has just been made for the authorization. -/
def Fresh (id : String) (decoded : DecodedTransaction) (result : SignResult) (h : Log) : Prop :=
  ∃ raw, ⟨.signMessage id decoded.messageBytes,.ok raw⟩ ∈ h ∧ attachSignature web3 decoded raw = .ok result

private theorem signClaimed_orderly {transaction : String} {decoded : DecodedTransaction}
    (known : decodeTransaction web3 transaction = .ok decoded) (id : String) (lastValidBlockHeight : Option ℤ) (h : Log)
    (ready : Ready id h) :
    Orderly web3 (signClaimed web3 id decoded lastValidBlockHeight) (Fresh web3 id decoded) h := by
  have accepted (answer : Except String Bytes) :
      ∀ entry ∈ (⟨.signMessage id decoded.messageBytes,answer⟩ :: h : Log), rejects entry = false := by
    simpa [rejects] using ready.1
  have accepted' (raw : Bytes) (data : Option RowData) (answer : Except String Bool) :
      ∀ entry ∈ (⟨.transition id .claimed .signed data,answer⟩ :: ⟨.signMessage id decoded.messageBytes,.ok raw⟩ :: h : Log),
        rejects entry = false := by
    simpa [rejects] using ready.1
  simp only [Orderly,signClaimed,wp_tryCatch,wp_bind,wp_call,wp_ofExcept,wp_reject,wp_pure,wp_throw,orderly,
    implies_true,and_true]
  refine ⟨⟨ready.1,ready.2⟩,?_,fun _ => accepted _⟩
  intro raw
  refine ⟨?_,fun _ _ => accepted _⟩
  intro signed attached
  refine ⟨⟨accepted _,transaction,decoded,raw,signed,lastValidBlockHeight,known,List.mem_cons_self,attached,rfl⟩,?_,fun _ => accepted' _ _ _⟩
  intro fenced
  exact ⟨fun _ => accepted' _ _ _,fun _ => ⟨raw,by simp,attached⟩⟩

private theorem claim_orderly {transaction : String} {decoded : DecodedTransaction}
    (known : decodeTransaction web3 transaction = .ok decoded) (id : String) (expiresAt : ℤ)
    (lastValidBlockHeight : Option ℤ) (h : Log) (accepted : ∀ entry ∈ h, rejects entry = false)
    (unsigned : ∀ entry ∈ h, signs id entry = false) :
    Orderly web3 (do
      let fresh ← call (Op.consume id expiresAt)
      reject (fresh = false) "envelope_replayed"
      let _ ← fenceBlockhash c id lastValidBlockHeight
      signClaimed web3 id decoded lastValidBlockHeight) (Fresh web3 id decoded) h := by
  simp only [Orderly,wp_bind,wp_call,wp_reject,orderly,implies_true,and_true]
  refine ⟨accepted,?_⟩
  intro fresh
  refine ⟨trivial,?_⟩
  intro taken
  have ready : Ready id (⟨.consume id expiresAt,.ok fresh⟩ :: h) := by
    refine ⟨by simpa [rejects] using accepted,⟨expiresAt,?_⟩,by simpa [signs] using unsigned⟩
    simp only [Bool.not_eq_false] at taken
    rw [taken]
    exact List.mem_cons_self
  apply wp_mono _ (fence_orderly web3 c id lastValidBlockHeight _ ready)
  · exact fun _ h ready => signClaimed_orderly web3 known id lastValidBlockHeight h ready
  · exact fun _ _ _ => trivial

/-- What a call gives back: the signature it has made, or the one it has read. -/
def Given (id : String) (decoded : DecodedTransaction) (result : SignResult) (h : Log) : Prop :=
  Fresh web3 id decoded result h ∨
    ∃ row, ⟨.get id,.ok (some row)⟩ ∈ h ∧ readStored toLowerCase (some row) decoded.messageHash = .ok (some result)

private theorem stored_orderly (id requestHash : String) (h : Log) (accepted : ∀ entry ∈ h, rejects entry = false) :
    Orderly web3 (stored toLowerCase id requestHash) (fun prior after => ∃ row, after = ⟨.get id,.ok row⟩ :: h ∧
      readStored toLowerCase row requestHash = .ok prior) h := by
  simp only [Orderly,stored,wp_bind,wp_reject,wp_call,wp_ofExcept,orderly,implies_true,and_true,true_and]
  refine fun _ => ⟨accepted,?_⟩
  intro row prior read
  exact ⟨row,rfl,read⟩

theorem sign_orderly (authorizationId transaction claimedFeePayer : String) (lastValidBlockHeight : Option ℤ) :
    Orderly web3 (sign web3 toLowerCase c authorizationId transaction claimedFeePayer lastValidBlockHeight)
      (fun result h => ∃ decoded, decodeTransaction web3 transaction = .ok decoded ∧
        Given web3 toLowerCase authorizationId decoded result h) [] := by
  simp only [Orderly,sign,wp_bind,wp_ofExcept,wp_call,wp_reject,orderly,implies_true,and_true]
  intro decoded known
  refine ⟨⟨by simp,by simp⟩,?_⟩
  intro passed
  refine ⟨trivial,?_⟩
  intro _
  have accepted : ∀ entry ∈ ([⟨.evaluatePolicy decoded,.ok passed⟩] : Log), rejects entry = false := by simp [rejects]
  apply wp_mono _ (stored_orderly web3 toLowerCase authorizationId decoded.messageHash _ accepted)
  · intro prior h read
    obtain ⟨row,rfl,read⟩ := read
    have accepted' : ∀ entry ∈ (⟨.get authorizationId,.ok row⟩ :: [⟨.evaluatePolicy decoded,.ok passed⟩] : Log),
        rejects entry = false := by simp [rejects]
    cases prior with
    | some prior =>
      cases row with
      | none => cases read
      | some row => exact ⟨decoded,known,.inr ⟨row,List.mem_cons_self,read⟩⟩
    | none =>
      rw [wp_bind,wp_call]
      refine ⟨⟨accepted',trivial⟩,?_,fun _ => trivial⟩
      intro now
      have claimed := claim_orderly web3 c known authorizationId (now + 60000) lastValidBlockHeight
        (⟨.now,.ok now⟩ :: ⟨.get authorizationId,.ok row⟩ :: [⟨.evaluatePolicy decoded,.ok passed⟩]) (by simp [rejects])
        (by simp [signs])
      apply wp_mono _ claimed
      · exact fun result h fresh => ⟨decoded,known,.inl fresh⟩
      · exact fun _ _ _ => trivial
  · exact fun _ _ _ => trivial

theorem signEnvelope_orderly (transaction : String) (envelope : Option AuthorizationEnvelope) :
    Orderly web3 (signEnvelope web3 toLowerCase c transaction envelope)
      (fun result h => ∃ decoded e, decodeTransaction web3 transaction = .ok decoded ∧ envelope = some e ∧
        Given web3 toLowerCase e.claims.id decoded result h) [] := by
  simp only [Orderly,signEnvelope,wp_bind,wp_ofExcept,wp_ofOption,wp_reject,implies_true,and_true]
  refine ⟨trivial,fun _ decoded known => ?_⟩
  intro e named
  have same : envelope = some e := (Option.filter_eq_some_iff.mp named).1
  apply wp_mono _ (stored_orderly web3 toLowerCase e.claims.id decoded.messageHash [] (by simp))
  · intro prior h read
    obtain ⟨row,rfl,read⟩ := read
    simp only [wp_bind,wp_call,orderly,implies_true,and_true]
    refine ⟨⟨by simp [rejects],by simp [consumes]⟩,?_⟩
    intro verified
    refine ⟨⟨by simp [rejects],by simp [consumes]⟩,?_⟩
    intro passed
    cases prior with
    | some prior =>
      cases row with
      | none => cases read
      | some row => exact ⟨decoded,e,known,same,.inr ⟨row,by simp,read⟩⟩
    | none =>
      have claimed := claim_orderly web3 c known e.claims.id e.claims.expiresAt (some e.claims.lastValidBlockHeight)
        [⟨.evaluatePolicy decoded,.ok passed⟩,⟨.verify decoded e,.ok verified⟩,⟨.get e.claims.id,.ok row⟩]
        (by simp [rejects]) (by simp [signs])
      apply wp_mono _ claimed
      · exact fun result h fresh => ⟨decoded,e,known,same,.inl fresh⟩
      · exact fun _ _ _ => trivial
  · exact fun _ _ _ => trivial

private theorem broadcastSigned_orderly (id transaction : String) :
    Orderly web3 (broadcastSigned web3 id transaction) (fun _ _ => True) [] := by
  have unresolved (expected : String) (returned : Json) (limit : Option ℤ) (h : Log)
      (accepted : ∀ entry ∈ h, rejects entry = false) :
      Orderly web3 (broadcastSigned.unresolved id expected returned limit) (fun _ _ => True) h := by
    simp only [Orderly,broadcastSigned.unresolved,wp_bind,wp_call,wp_throw,orderly,implies_true,and_true]
    exact accepted
  simp only [Orderly,broadcastSigned,wp_bind,wp_ofExcept,wp_call,orderly,implies_true,and_true]
  intro expected _
  refine ⟨by simp,?_⟩
  intro row
  refine ⟨by simp [rejects],?_⟩
  intro returned
  have accepted : ∀ entry ∈ ([⟨.sendTransaction transaction,.ok returned⟩,⟨.get id,.ok row⟩] : Log),
      rejects entry = false := by simp [rejects]
  have other := unresolved expected returned ((row.bind (·.data)).bind (·.lastValidBlockHeight)) _ accepted
  cases returned with
  | str landed =>
    simp only [wp_ite,wp_bind,wp_call,wp_reject,wp_pure,orderly,implies_true,and_true]
    exact ⟨fun _ => accepted,fun _ => other⟩
  | _ => exact other

private theorem reconcileTransaction_orderly (row : ReplayRow) (h : Log) (accepted : ∀ entry ∈ h, rejects entry = false) :
    Orderly web3 (reconcileTransaction row) (fun _ after => ∀ entry ∈ after, rejects entry = false) h := by
  have more {e : Entry Op Op.Ans String} {h : Log} (fine : rejects e = false)
      (accepted : ∀ entry ∈ h, rejects entry = false) : ∀ entry ∈ e :: h, rejects entry = false := by
    simpa using ⟨fine,accepted⟩
  unfold Orderly reconcileTransaction
  dsimp only
  split
  · exact accepted
  · rename_i signature there
    rw [wp_bind,wp_call]
    refine ⟨⟨accepted,trivial⟩,?_,fun _ => trivial⟩
    intro status
    have asked := more (e := ⟨.getSignatureStatuses signature,.ok status⟩) rfl accepted
    cases status with
    | some status =>
      dsimp only
      cases seen : settled row status with
      | none => exact asked
      | some state =>
        have unsigned : state ≠ .signed := by
          intro same
          subst same
          unfold settled at seen
          split_ifs at seen <;> cases seen
        rw [wp_bind,wp_call]
        refine ⟨⟨asked,?_⟩,fun _ => more rfl asked,fun _ => trivial⟩
        cases state <;> trivial
    | none =>
      cases (row.data.getD {}).lastValidBlockHeight with
      | none => exact asked
      | some limit =>
        dsimp only
        rw [wp_bind,wp_call]
        refine ⟨⟨asked,trivial⟩,?_,fun _ => trivial⟩
        intro height
        have asked' := more (e := ⟨.getBlockHeight,.ok height⟩) rfl asked
        cases height with
        | none => exact asked'
        | some height =>
          simp only [wp_ite,wp_bind,wp_call,wp_pure,orderly,implies_true,and_true]
          exact ⟨fun _ => ⟨asked',fun _ => more rfl asked'⟩,fun _ => asked'⟩

private theorem reconcileRows_orderly (rows : List ReplayRow) (h : Log) (accepted : ∀ entry ∈ h, rejects entry = false) :
    Orderly web3 (reconcileRows rows) (fun _ _ => True) h := by
  induction rows generalizing h with
  | nil => trivial
  | cons row rows ih =>
    unfold Orderly reconcileRows
    rw [wp_bind]
    apply wp_mono _ (reconcileTransaction_orderly web3 row h accepted)
    · exact fun _ h accepted => ih h accepted
    · exact fun _ _ _ => trivial

theorem program_orderly (call : Call) : ((system web3 toLowerCase c).program call).wp (orderly web3)
    (fun _ _ => True) (fun _ _ => True) [] := by
  have discarded : ∀ {α : Type} {p : Signing α} {Q : α → Log → Prop}, Orderly web3 p Q [] →
      Orderly web3 (discard p) (fun _ _ => True) [] := by
    intro α p Q good
    simp only [Orderly,discard,wp_bind]
    apply wp_mono _ good
    · exact fun _ _ _ => trivial
    · exact fun _ _ _ => trivial
  cases call with
  | sign authorizationId transaction claimedFeePayer lastValidBlockHeight =>
    exact discarded (sign_orderly web3 toLowerCase c authorizationId transaction claimedFeePayer lastValidBlockHeight)
  | signEnvelope transaction envelope => exact discarded (signEnvelope_orderly web3 toLowerCase c transaction envelope)
  | result id requestHash recoverRaw =>
    refine @discarded _ _ (fun _ _ => True) ?_
    simp [Orderly,orderly]
  | broadcastSigned id transaction => exact discarded (broadcastSigned_orderly web3 id transaction)
  | reconcileTransactions =>
    simp only [system,Call.program,reconcileTransactions,wp_bind,wp_call,orderly,implies_true,and_true]
    refine ⟨by simp,?_⟩
    intro rows
    exact reconcileRows_orderly web3 rows _ (by simp [rejects])

/-- The transaction and the envelope of the call have passed the verifier and the policy. -/
structure Vetted (transaction : String) (envelope : Option AuthorizationEnvelope) (decoded : DecodedTransaction)
    (e : AuthorizationEnvelope) (h : Log) : Prop where
  decodes : decodeTransaction web3 transaction = .ok decoded
  given : envelope = some e
  verified : ⟨.verify decoded e,.ok ()⟩ ∈ h
  passed : ⟨.evaluatePolicy decoded,.ok ()⟩ ∈ h

def vets (transaction : String) (envelope : Option AuthorizationEnvelope) (h : Log) : Op → Prop
  | .consume id _ => ∃ decoded e, Vetted web3 transaction envelope decoded e h ∧ e.claims.id = id
  | .signMessage id bytes => ∃ decoded e, Vetted web3 transaction envelope decoded e h ∧ e.claims.id = id ∧
      decoded.messageBytes = bytes
  | _ => True

section Vetting
variable {transaction : String} {envelope : Option AuthorizationEnvelope} {decoded : DecodedTransaction}
  {e : AuthorizationEnvelope}

private theorem Vetted.cons {h : Log} {entry : Entry Op Op.Ans String} (vetted : Vetted web3 transaction envelope decoded e h) :
    Vetted web3 transaction envelope decoded e (entry :: h) :=
  ⟨vetted.decodes,vetted.given,List.mem_cons_of_mem _ vetted.verified,List.mem_cons_of_mem _ vetted.passed⟩

private theorem claim_vetted (h : Log) (vetted : Vetted web3 transaction envelope decoded e h) :
    wp (vets web3 transaction envelope) (do
      let fresh ← call (Op.consume e.claims.id e.claims.expiresAt)
      reject (fresh = false) "envelope_replayed"
      let _ ← fenceBlockhash c e.claims.id (some e.claims.lastValidBlockHeight)
      signClaimed web3 e.claims.id decoded (some e.claims.lastValidBlockHeight))
      (fun _ => Vetted web3 transaction envelope decoded e) (fun _ _ => True) h := by
  have signed : ∀ h, Vetted web3 transaction envelope decoded e h →
      wp (vets web3 transaction envelope) (signClaimed web3 e.claims.id decoded (some e.claims.lastValidBlockHeight))
        (fun _ => Vetted web3 transaction envelope decoded e) (fun _ _ => True) h := by
    intro h vetted
    simp only [signClaimed,wp_tryCatch,wp_bind,wp_call,wp_ofExcept,wp_reject,wp_pure,wp_throw,vets,implies_true,
      and_true,true_and]
    refine ⟨⟨decoded,e,vetted,rfl,rfl⟩,?_⟩
    intro _ _ _ _ _
    exact vetted.cons.cons
  rw [wp_bind,wp_call]
  refine ⟨⟨decoded,e,vetted,rfl⟩,?_,fun _ => trivial⟩
  intro fresh
  simp only [wp_bind,wp_reject,implies_true,true_and]
  intro _
  simp only [fenceBlockhash,wp_ite,wp_bind,wp_call,wp_ofOption,wp_pure,wp_throw,vets,implies_true,and_true,true_and]
  refine ⟨?_,fun _ => signed _ vetted.cons⟩
  intro _ _ _ _ _
  exact signed _ vetted.cons.cons

theorem signEnvelope_vetted (transaction : String) (envelope : Option AuthorizationEnvelope) :
    wp (vets web3 transaction envelope) (signEnvelope web3 toLowerCase c transaction envelope)
      (fun _ h => ∃ decoded e, Vetted web3 transaction envelope decoded e h) (fun _ _ => True) [] := by
  simp only [signEnvelope,stored,wp_bind,wp_ofExcept,wp_ofOption,wp_reject,wp_call,vets,implies_true,and_true,true_and]
  intro _ decoded known e named _ row prior _ verified passed
  have vetted : Vetted web3 transaction envelope decoded e
      [⟨.evaluatePolicy decoded,.ok passed⟩,⟨.verify decoded e,.ok verified⟩,⟨.get e.claims.id,.ok row⟩] :=
    ⟨known,(Option.filter_eq_some_iff.mp named).1,by simp,by simp⟩
  cases prior with
  | some prior => exact ⟨decoded,e,vetted⟩
  | none =>
    apply wp_mono _ (claim_vetted web3 c _ vetted)
    · exact fun _ h vetted => ⟨decoded,e,vetted⟩
    · exact fun _ _ _ => trivial

end Vetting

end Calls

structure Backed (web3 : Web3) (toLowerCase : String → String) (id : String) (p : Pool) : Prop where
  signed : ∀ row, p.state.row id = some row → row.state = .signed → Stores web3 id row.data p.trace
  read : ∀ row, ⟨.get id,.ok (some row)⟩ ∈ p.trace → row.state = .signed → Stores web3 id row.data p.trace
  looked : ∀ requestHash recoverRaw signature bytes,
    ⟨.result id requestHash recoverRaw,.ok (.signed signature bytes)⟩ ∈ p.trace →
      ∃ result, Authentic web3 toLowerCase id requestHash result p.trace ∧ signature = result.signature ∧
        ∀ b ∈ bytes, b = result.transaction
  untouched : p.state.row id = none → System.Unused (fun t => Armed id t.history) (signs id) p
  exclusive : System.Exclusive (fun t => Armed id t.history) (signs id) p

section Runs
variable {web3 : Web3} {toLowerCase : String → String} {c : SignerConfig}

theorem Stores.mono {id : String} {data : Option RowData} {h h' : Log} (stores : Stores web3 id data h) (grows : h ⊆ h') :
    Stores web3 id data h' := by
  obtain ⟨transaction,decoded,raw,signed,limit,known,made,rest⟩ := stores
  exact ⟨transaction,decoded,raw,signed,limit,known,grows made,rest⟩

theorem Authentic.mono {id requestHash : String} {result : SignResult} {h h' : Log}
    (authentic : Authentic web3 toLowerCase id requestHash result h) (grows : h ⊆ h') :
    Authentic web3 toLowerCase id requestHash result h' := by
  obtain ⟨transaction,decoded,raw,known,made,rest⟩ := authentic
  exact ⟨transaction,decoded,raw,known,grows made,rest⟩

theorem authentic_of_read {id requestHash : String} {row : ReplayRow} {prior : SignResult} {h : Log}
    (read : readStored toLowerCase (some row) requestHash = .ok (some prior)) (stores : Stores web3 id row.data h) :
    Authentic web3 toLowerCase id requestHash prior h := by
  obtain ⟨_,data,there,asked,bytes,signature⟩ := (readStored_eq_some toLowerCase).mp read
  obtain ⟨transaction,decoded,raw,signed,limit,known,made,attached,written⟩ := stores
  rw [there,Option.some.injEq] at written
  subst written
  rw [present_eq_some,Option.some.injEq] at bytes
  have same : signed = prior := by
    cases signed
    cases prior
    simp only at bytes signature
    rw [bytes.1,signature]
  rw [Option.map_some,Option.some.injEq] at asked
  exact ⟨transaction,decoded,raw,known,made,same ▸ attached,asked⟩

/-- A lookup that finds a signature reads it from a signed row, the raw bytes with it. -/
private theorem result_reads {id requestHash : String} {recoverRaw : Bool} {now : ℤ} {s : ReplayStore}
    {signature bytes : Option String}
    (answered : (result toLowerCase id requestHash recoverRaw now s).1 = .ok (.signed signature bytes)) :
    ∃ row prior, s.get id = some row ∧ readStored toLowerCase (some row) requestHash = .ok (some prior) ∧
      signature = prior.signature ∧ ∀ b ∈ bytes, b = prior.transaction := by
  unfold result at answered
  split at answered
  · cases answered
  · split at answered
    · cases answered
    · split at answered
      · cases answered
      · cases answered
      · rename_i prior read
        cases found : s.get id with
        | none => simp [readStored,found] at read
        | some row =>
          rw [found] at read
          refine ⟨row,prior,rfl,read,?_⟩
          split at answered
          · rcases s.recoverSigned_cases id now with refused | ⟨old,there,_,_,recovered⟩
            · rw [refused] at answered
              cases answered
              exact ⟨rfl,by simp⟩
            · rw [recovered] at answered
              dsimp only at answered
              cases Option.some.inj (found.symm.trans there)
              obtain ⟨_,data,known,_,present_,_⟩ := (readStored_eq_some toLowerCase).mp read
              simp only [known,Option.bind_some,present_] at answered
              cases answered
              exact ⟨rfl,by simp⟩
          · cases answered
            exact ⟨rfl,by simp⟩

theorem backed_initial (id : String) (clock : ℤ) : Backed web3 toLowerCase id (Config.initial (State.initial clock)) := by
  have unused : System.Unused (fun t => Armed id t.history) (signs id)
      (Config.initial (State.initial clock) : Pool) := System.unused_initial _
  refine ⟨?_,?_,?_,fun _ => unused,unused.exclusive⟩
  · intro row found
    simp [State.initial,State.row,Config.initial] at found
  · intro row inside
    cases inside
  · intro _ _ _ _ inside
    cases inside

private theorem claim_absent {id : String} {expiresAt : ℤ} {choice : Choice} {s : State}
    (answered : (handle toLowerCase choice (.consume id expiresAt) s).1 = .ok true) : s.row id = none := by
  rcases s.replay.consume_cases id expiresAt s.clock with refused | ⟨rows,inserted,claimed⟩
  · simp only [handle,refused] at answered
    cases answered
  · exact (Table.insert?_eq_some_iff.mp inserted).1

private theorem absent_before {id : String} {choice : Choice} {op : Op} {s : State}
    (absent : (handle toLowerCase choice op s).2.row id = none) : s.row id = none ∧
      ∀ expiresAt, op = .consume id expiresAt → ¬(handle toLowerCase choice op s).1 ≍ (.ok true : Except String Bool) := by
  constructor
  · cases handle_row toLowerCase id choice op s with
    | same same => exact same.symm.trans absent
    | claimed none_ _ => exact none_
    | moved _ _ after => simp [absent] at after
    | released _ after => simp [absent] at after
  · intro expiresAt same answered
    subst same
    rcases s.replay.consume_cases id expiresAt s.clock with refused | ⟨rows,inserted,claimed⟩
    · simp only [handle,refused] at answered
      cases eq_of_heq answered
    · have found := Table.find?_insert? inserted id
      simp only [handle,claimed,State.row,ReplayStore.get,found,if_true] at absent
      cases absent

private theorem signed_perform {id : String} {p : Pool} (backed : Backed web3 toLowerCase id p) (choice : Choice) {op : Op}
    {history : Log} (allowed : orderly web3 history op) (recorded : history ⊆ p.trace) :
    ∀ row, (handle toLowerCase choice op p.state).2.row id = some row → row.state = .signed →
      Stores web3 id row.data p.trace := by
  intro row found state
  cases handle_row toLowerCase id choice op p.state with
  | same same => exact backed.signed row (same.symm.trans found) state
  | claimed absent after =>
    cases Option.some.inj (after.symm.trans found)
    cases state
  | moved there expected after =>
    cases Option.some.inj (after.symm.trans found)
    change _ = ExecutionState.signed at state
    simp only at state
    subst state
    exact allowed.2.mono recorded
  | released there after =>
    cases Option.some.inj (after.symm.trans found)
    have was := backed.signed _ there state
    exact was

private theorem armed_before {id : String} {op : Op} {answer : Except String op.Ans} {h : Log}
    (armed : Armed id (⟨op,answer⟩ :: h))
    (unclaimed : ∀ expiresAt, op = .consume id expiresAt → ¬answer ≍ (.ok true : Except String Bool)) : Armed id h := by
  obtain ⟨⟨expiresAt,claimed⟩,unsigned⟩ := armed
  refine ⟨⟨expiresAt,?_⟩,fun entry member => unsigned entry (List.mem_cons_of_mem _ member)⟩
  obtain same | before := List.mem_cons.mp claimed
  · obtain ⟨rfl,answered⟩ := Sigma.mk.inj same
    exact absurd answered.symm (unclaimed expiresAt rfl)
  · exact before

private theorem handover {id : String} {p : Pool} (backed : Backed web3 toLowerCase id p) (choice : Choice) {i : ℕ} {op : Op}
    {next : Except String op.Ans → Signing Unit} {history : Log} (allowed : orderly web3 history op) :
    System.Handover (fun t => Armed id t.history) (signs id) p i ⟨.perform op next,history⟩
      ⟨next (handle toLowerCase choice op p.state).1,⟨op,(handle toLowerCase choice op p.state).1⟩ :: history⟩
      ⟨op,(handle toLowerCase choice op p.state).1⟩ := by
  by_cases signing : signs id ⟨op,(handle toLowerCase choice op p.state).1⟩ = true
  · refine .use ?_ ?_
    · cases op with
      | signMessage name bytes =>
        have same : name = id := by simpa [signs] using signing
        exact same ▸ allowed.2
      | _ => simp [signs] at signing
    · intro armed
      rw [armed.2 _ List.mem_cons_self] at signing
      cases signing
  · have unused : signs id ⟨op,(handle toLowerCase choice op p.state).1⟩ = false := by simpa using signing
    by_cases claims : ∃ expiresAt, op = .consume id expiresAt ∧
        (handle toLowerCase choice op p.state).1 ≍ (.ok true : Except String Bool)
    · obtain ⟨expiresAt,rfl,answered⟩ := claims
      have free := backed.untouched (claim_absent (eq_of_heq answered))
      exact .take unused free.2 fun j t _ found => free.1 j t found
    · refine .keep unused fun armed => armed_before armed ?_
      intro expiresAt same answered
      exact claims ⟨expiresAt,same,answered⟩

private theorem backed_step {id : String} {p : Pool} (event : Event Call Choice)
    (disciplined : System.Obeys (orderly web3) (fun _ => True) p) (backed : Backed web3 toLowerCase id p) :
    Backed web3 toLowerCase id ((system web3 toLowerCase c).step p event) := by
  have exclusive : System.Exclusive (fun t => Armed id t.history) (signs id) ((system web3 toLowerCase c).step p event) := by
    refine (system web3 toLowerCase c).exclusive_step p event backed.exclusive ?_ ?_
    · intro call armed
      obtain ⟨⟨_,claimed⟩,_⟩ := armed
      cases claimed
    · intro i choice op next history _ here
      exact handover backed choice (disciplined.allowed here)
  have unarmed : ∀ h : Log, h = [] → ¬Armed id h := by
    intro h empty armed
    obtain ⟨⟨_,claimed⟩,_⟩ := armed
    rw [empty] at claimed
    cases claimed
  cases event with
  | start call =>
    refine ⟨backed.signed,backed.read,backed.looked,fun absent => ⟨?_,(backed.untouched absent).2⟩,exclusive⟩
    intro j t found
    cases (system web3 toLowerCase c).thread_of_step found with
    | started _ _ fresh => exact unarmed _ (by rw [fresh])
    | kept there _ => exact (backed.untouched absent).1 j t there
    | resumed _ _ _ _ performed => cases performed
  | ambient choice => exact ⟨backed.signed,backed.read,backed.looked,backed.untouched,exclusive⟩
  | crash =>
    refine ⟨backed.signed,backed.read,backed.looked,fun absent => ⟨?_,(backed.untouched absent).2⟩,exclusive⟩
    intro j t found
    cases found
  | perform i choice =>
    rcases (system web3 toLowerCase c).perform_cases p i choice with ⟨op,next,history,here⟩ | idle
    · have allowed := disciplined.allowed here
      have signed := signed_perform backed choice allowed (disciplined.recorded here)
      rw [(system web3 toLowerCase c).perform_eq here] at exclusive ⊢
      have grows : p.trace ⊆ ⟨op,(handle toLowerCase choice op p.state).1⟩ :: p.trace := List.subset_cons_self _ _
      refine ⟨fun row found state => (signed row found state).mono grows,?_,?_,?_,exclusive⟩
      · intro row inside state
        obtain now | before := List.mem_cons.mp inside
        · obtain ⟨rfl,answered⟩ := Sigma.mk.inj now
          have found : p.state.row id = some row := by
            have := eq_of_heq answered
            simp only [system,handle,Except.ok.injEq] at this
            exact this.symm
          exact (backed.signed row found state).mono grows
        · exact (backed.read row before state).mono grows
      · intro requestHash recoverRaw signature bytes inside
        obtain now | before := List.mem_cons.mp inside
        · obtain ⟨rfl,answered⟩ := Sigma.mk.inj now
          obtain ⟨row,prior,found,read,same,raw⟩ := result_reads (eq_of_heq answered).symm
          have state := ((readStored_eq_some toLowerCase).mp read).1
          exact ⟨prior,(authentic_of_read read (backed.signed row found state)).mono grows,same,raw⟩
        · obtain ⟨result,authentic,rest⟩ := backed.looked requestHash recoverRaw signature bytes before
          exact ⟨result,authentic.mono grows,rest⟩
      · intro absent
        obtain ⟨absent',unclaimed⟩ := absent_before absent
        have free := backed.untouched absent'
        refine ⟨?_,?_⟩
        · intro j t found armed
          rcases System.thread_updated found with ⟨rfl,rfl⟩ | ⟨_,there⟩
          · exact free.1 j _ here (armed_before armed unclaimed)
          · exact free.1 j t there armed
        · have quiet : signs id ⟨op,(handle toLowerCase choice op p.state).1⟩ = false := by
            cases op with
            | signMessage name bytes =>
              by_contra signing
              have same : name = id := by simpa [signs] using signing
              exact free.1 i _ here (same ▸ allowed.2)
            | _ => rfl
          rw [List.countP_cons_of_neg (by rw [Bool.not_eq_true]; exact quiet)]
          exact free.2
    · rw [idle]
      exact backed

private theorem authentic_of_given {id : String} {p : Pool} (backed : Backed web3 toLowerCase id p) {transaction : String}
    {decoded : DecodedTransaction} {result : SignResult} {h : Log} (known : decodeTransaction web3 transaction = .ok decoded)
    (given : Given web3 toLowerCase id decoded result h) (recorded : h ⊆ p.trace) :
    Authentic web3 toLowerCase id decoded.messageHash result p.trace := by
  obtain ⟨raw,made,attached⟩ | ⟨row,inside,read⟩ := given
  · exact ⟨transaction,decoded,raw,known,recorded made,attached,rfl⟩
  · have state := ((readStored_eq_some toLowerCase).mp read).1
    exact authentic_of_read read (backed.read row (recorded inside) state)

private theorem unclaimed_of_rejected {α : Type} {p q : Signing α} {Q : α → Log → Prop} {h : Log}
    (good : Orderly web3 p Q []) (ran : Ran p h q) (rejected : ∃ entry ∈ h, rejects entry = true) :
    ∀ entry ∈ h, consumes entry = false := by
  obtain ⟨entry,inside,rejected⟩ := rejected
  obtain ⟨after,before,rfl⟩ := List.append_of_mem inside
  have last : after = [] := by
    cases after with
    | nil => rfl
    | cons newer after =>
      have newest : Ran p ([] ++ newer :: (after ++ entry :: before)) q := ran
      have accepted := (newest.allowed good).1
      rw [accepted entry (by simp)] at rejected
      cases rejected
  subst last
  have quiet := (ran.allowed good).2
  obtain ⟨op,answer⟩ := entry
  have old : ∀ entry ∈ before, consumes entry = false := by
    cases op with
    | verify decoded e => exact quiet
    | evaluatePolicy decoded => exact quiet
    | _ => simp [rejects] at rejected
  have new : consumes ⟨op,answer⟩ = false := by
    cases op with
    | consume id expiresAt => simp [rejects] at rejected
    | _ => rfl
  simpa using ⟨new,old⟩

end Runs

theorem one_signature (web3 : Web3) (toLowerCase : String → String) (c : SignerConfig) (clock : ℤ)
    (events : List (Event Call Choice)) :
    let p := (system web3 toLowerCase c).run (Config.initial (State.initial clock)) events
    (∀ id, p.trace.countP (signs id) ≤ 1) ∧
    (∀ i t, p.threads i = some t →
      (∀ id transaction claimedFeePayer limit result,
        Ran (sign web3 toLowerCase c id transaction claimedFeePayer limit) t.history (.pure result) →
          ∃ decoded, decodeTransaction web3 transaction = .ok decoded ∧
            Authentic web3 toLowerCase id decoded.messageHash result p.trace) ∧
      (∀ transaction envelope result,
        Ran (signEnvelope web3 toLowerCase c transaction envelope) t.history (.pure result) →
          ∃ decoded e, Vetted web3 transaction envelope decoded e t.history ∧
            Authentic web3 toLowerCase e.claims.id decoded.messageHash result p.trace)) ∧
    (∀ id requestHash recoverRaw signature bytes,
      ⟨.result id requestHash recoverRaw,.ok (.signed signature bytes)⟩ ∈ p.trace →
        ∃ result, Authentic web3 toLowerCase id requestHash result p.trace ∧ signature = result.signature ∧
          ∀ b ∈ bytes, b = result.transaction) ∧
    (∀ transaction envelope h q, Ran (signEnvelope web3 toLowerCase c transaction envelope) h q →
      (∀ id bytes answer, ⟨.signMessage id bytes,answer⟩ ∈ h → ∃ decoded e,
        Vetted web3 transaction envelope decoded e h ∧ e.claims.id = id ∧ decoded.messageBytes = bytes) ∧
      ((∃ entry ∈ h, rejects entry = true) → ∀ entry ∈ h, consumes entry = false)) ∧
    ∀ id transaction claimedFeePayer limit h q,
      Ran (sign web3 toLowerCase c id transaction claimedFeePayer limit) h q →
        (∃ entry ∈ h, rejects entry = true) → ∀ entry ∈ h, consumes entry = false := by
  intro p
  have kept : ∀ id, System.Obeys (orderly web3) (fun _ => True) p ∧ Backed web3 toLowerCase id p := by
    intro id
    refine (system web3 toLowerCase c).run_induction (program_orderly web3 toLowerCase c) (fun _ _ => True)
      (Backed web3 toLowerCase id) (fun p event disciplined _ backed => backed_step event disciplined backed)
      (System.obeys_initial _) (backed_initial id clock) events ?_
    exact (system web3 toLowerCase c).meets_of_forall (fun _ _ => trivial) _ _
  refine ⟨fun id => (kept id).2.exclusive.once,?_,fun id => (kept id).2.looked,?_,?_⟩
  · intro i t found
    have recorded := (kept "").1.recorded found
    refine ⟨?_,?_⟩
    · intro id transaction claimedFeePayer limit result ran
      obtain ⟨decoded,known,given⟩ := ran.wp (sign_orderly web3 toLowerCase c id transaction claimedFeePayer limit)
      exact ⟨decoded,known,authentic_of_given (kept id).2 known given recorded⟩
    · intro transaction envelope result ran
      obtain ⟨decoded,e,known,same,given⟩ := ran.wp (signEnvelope_orderly web3 toLowerCase c transaction envelope)
      obtain ⟨decoded',e',vetted⟩ := ran.wp (signEnvelope_vetted web3 toLowerCase c transaction envelope)
      have decodes := Except.ok.inj (known.symm.trans vetted.decodes)
      have envelopes := Option.some.inj (same.symm.trans vetted.given)
      subst decodes envelopes
      exact ⟨decoded,e,vetted,authentic_of_given (kept _).2 known given recorded⟩
  · intro transaction envelope h q ran
    refine ⟨?_,unclaimed_of_rejected (signEnvelope_orderly web3 toLowerCase c transaction envelope) ran⟩
    intro id bytes answer inside
    obtain ⟨after,before,rfl⟩ := List.append_of_mem inside
    obtain ⟨decoded,e,vetted,rest⟩ := ran.allowed (signEnvelope_vetted web3 toLowerCase c transaction envelope)
    have later : before ⊆ after ++ ⟨.signMessage id bytes,answer⟩ :: before :=
      fun entry member => List.mem_append_right _ (List.mem_cons_of_mem _ member)
    exact ⟨decoded,e,⟨vetted.decodes,vetted.given,later vetted.verified,later vetted.passed⟩,rest⟩
  · intro id transaction claimedFeePayer limit h q ran
    exact unclaimed_of_rejected (sign_orderly web3 toLowerCase c id transaction claimedFeePayer limit) ran

end RatifyOs.Signer
