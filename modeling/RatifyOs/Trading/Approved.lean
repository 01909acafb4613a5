import RatifyOs.Trading.Lifecycle

/-! Whose bytes are broadcast: where the signature and the hash on a row come from. -/
namespace RatifyOs.Trading
open Async

/-- The stored quote of the execution, and the request that was approved with it. -/
def Request (e : String) (s : State) (request : Execution.SimulationRequest) : Prop :=
  ∃ x q, s.row e = some x ∧ s.store.getQuote x.quoteId = some q ∧ q.request = some request

section Approved
variable (web3 : Signer.Web3)

/-- The transaction is over a message with this hash. -/
def Over (transaction : Option String) (messageHash : String) : Prop :=
  ∃ wire decoded, transaction = some wire ∧ Signer.decodeTransaction web3 wire = .ok decoded ∧
    decoded.messageHash = messageHash

/-- The signer answered with a transaction over the message with this hash. -/
def Matches (messageHash : String) : Entry Op Op.Ans String → Prop
  | ⟨.sign _ _ _,.ok response⟩ => Over web3 response.transaction messageHash
  | ⟨.result _ _ _,.ok response⟩ => Over web3 response.transaction messageHash
  | _ => False

structure Provenance (e : String) (p : Pool) : Prop where
  steady : Steady e p
  rows : ∀ x, Known e p.trace x → ∃ y, p.state.row e = some y ∧ y.quoteId = x.quoteId
  quotes : ∀ id q, ⟨.getQuote id,.ok (some q)⟩ ∈ p.trace → p.state.store.getQuote id = some q
  hashed : ∀ authorizationId messageHash signature limit x,
    ⟨.transition e [.signing] (persistPatch authorizationId messageHash signature limit),.ok x⟩ ∈ p.trace →
      ∃ y, p.state.row e = some y ∧ y.messageHash = some messageHash
  origin : ∀ x signature, p.state.row e = some x → x.signature = some signature →
    ∃ response wire messageHash, response ∈ p.trace ∧ Responded e wire signature messageHash response ∧
      Signer.signatureOf web3 wire = .ok signature ∧ x.messageHash = some messageHash ∧
      Approved e p.trace messageHash

theorem provenance_initial (e : String) (clock : ℤ) : Provenance web3 e (Config.initial (State.initial clock)) where
  steady := steady_initial e clock
  rows x known := by
    cases known with
    | own read => simp [Config.initial] at read
    | named same read => simp [Config.initial] at read
    | listed same read member => simp [Config.initial] at read
  quotes id q member := by simp [Config.initial] at member
  hashed _ _ _ _ _ member := by simp [Config.initial] at member
  origin x signature found := by simp [Config.initial] at found

variable {web3} {c : Deployment}

theorem Responded.matches_iff {e wire signature messageHash : String} {response : Entry Op Op.Ans String}
    (responded : Responded e wire signature messageHash response) (hash : String) :
    Matches web3 hash response ↔ Over web3 (some wire) hash := by
  cases responded with
  | signed same reported => rw [Matches,same]
  | recovered same reported => rw [Matches,same]

private theorem quote_stays {p : Pool} (event : Event Call Choice) {id : String} {q : Quote}
    (found : p.state.store.getQuote id = some q) :
    ((system web3 c).step p event).state.store.getQuote id = some q := by
  cases event with
  | start call => exact found
  | crash => exact found
  | ambient choice => exact elapse_quote choice p.state found
  | perform i choice =>
    rcases (system web3 c).perform_cases p i choice with ⟨op,next,history,here⟩ | idle
    · rw [(system web3 c).perform_eq here]
      exact (handle_quote choice op p.state id).trans found
    · rw [idle]
      exact found

theorem known_current {e : String} {choice : Choice} {op : Op} {s : State} {h : Log} {x : Execution}
    (known : Known e (⟨op,(handle choice op s).1⟩ :: h) x) : Known e h x ∨ (handle choice op s).2.row e = some x := by
  cases known with
  | own read =>
    rcases List.mem_cons.mp read with entry | before
    · obtain ⟨rfl,answered⟩ := Sigma.mk.inj entry
      exact .inr (Except.ok.inj (eq_of_heq answered).symm)
    · exact .inl (.own before)
  | named same read =>
    rcases List.mem_cons.mp read with entry | before
    · obtain ⟨rfl,answered⟩ := Sigma.mk.inj entry
      have found := Except.ok.inj (eq_of_heq answered).symm
      have name := Data.Table.key_of_find? found
      rw [same] at name
      subst name
      exact .inr found
    · exact .inl (.named same before)
  | listed same read member =>
    rcases List.mem_cons.mp read with entry | before
    · obtain ⟨rfl,answered⟩ := Sigma.mk.inj entry
      cases eq_of_heq answered
      subst same
      exact .inr (Data.Table.find?_of_mem (Data.Table.mem_select.mp member).1)
    · exact .inl (.listed same before member)

private theorem rows_step {e : String} {p : Pool} (disciplined : Disciplined web3 c p)
    (provenance : Provenance web3 e p) (event : Event Call Choice) {x : Execution}
    (known : Known e ((system web3 c).step p event).trace x) :
    ∃ y, ((system web3 c).step p event).state.row e = some y ∧ y.quoteId = x.quoteId := by
  have change := change_of_step web3 c e disciplined event
  have older : Known e p.trace x →
      ∃ y, ((system web3 c).step p event).state.row e = some y ∧ y.quoteId = x.quoteId := by
    intro before
    obtain ⟨y,found,same⟩ := provenance.rows x before
    obtain ⟨y',row,kept,_⟩ := change.keeps provenance.steady found
    exact ⟨y',row,kept.trans same⟩
  rcases (system web3 c).trace_of_step p event with same | ⟨i,choice,op,next,history,_,here,grown,state⟩
  · rw [same] at known
    exact older known
  · rw [grown] at known
    rw [state] at older ⊢
    rcases known_current known with before | now
    · exact older before
    · exact ⟨x,now,rfl⟩

private theorem quotes_step {e : String} {p : Pool} (provenance : Provenance web3 e p) (event : Event Call Choice)
    {id : String} {q : Quote} (member : ⟨.getQuote id,.ok (some q)⟩ ∈ ((system web3 c).step p event).trace) :
    ((system web3 c).step p event).state.store.getQuote id = some q := by
  apply quote_stays
  rcases (system web3 c).trace_of_step p event with same | ⟨i,choice,op,next,history,_,here,grown,state⟩
  · rw [same] at member
    exact provenance.quotes id q member
  · rw [grown] at member
    rcases List.mem_cons.mp member with entry | before
    · obtain ⟨rfl,answered⟩ := Sigma.mk.inj entry
      exact Except.ok.inj (eq_of_heq answered).symm
    · exact provenance.quotes id q before

private theorem hashed_step {e : String} {p : Pool} (disciplined : Disciplined web3 c p)
    (provenance : Provenance web3 e p) (event : Event Call Choice) {authorizationId : Option String}
    {messageHash signature : String} {limit : ℕ} {x : Execution}
    (member : ⟨.transition e [.signing] (persistPatch authorizationId messageHash signature limit),.ok x⟩ ∈
      ((system web3 c).step p event).trace) :
    ∃ y, ((system web3 c).step p event).state.row e = some y ∧ y.messageHash = some messageHash := by
  have older : ⟨.transition e [.signing] (persistPatch authorizationId messageHash signature limit),.ok x⟩ ∈ p.trace →
      ∃ y, ((system web3 c).step p event).state.row e = some y ∧ y.messageHash = some messageHash := by
    intro before
    obtain ⟨y,found,hash⟩ := provenance.hashed _ _ _ _ _ before
    obtain ⟨z,there,known⟩ := provenance.steady.stays _ before signature .persisted
    cases Option.some.inj (found.symm.trans there)
    obtain ⟨y',row,_,kept⟩ := (change_of_step web3 c e disciplined event).keeps provenance.steady found
    exact ⟨y',row,(kept (by rw [known]; rfl)).2.trans hash⟩
  rcases (system web3 c).trace_of_step p event with same | ⟨i,choice,op,next,history,_,here,grown,state⟩
  · rw [same] at member
    exact older member
  · rw [grown] at member
    rcases List.mem_cons.mp member with entry | before
    · obtain ⟨rfl,answered⟩ := Sigma.mk.inj entry
      have returned : (handle choice (.transition e [.signing]
          (persistPatch authorizationId messageHash signature limit)) p.state).1 = .ok x := (eq_of_heq answered).symm
      obtain ⟨row,old,_,_,patched⟩ := transition_answer returned
      rw [state]
      exact ⟨x,row,by rw [patched]; rfl⟩
    · exact older before

private theorem origin_step {e : String} {p : Pool} (disciplined : Disciplined web3 c p)
    (provenance : Provenance web3 e p) (event : Event Call Choice) {x : Execution} {signature : String}
    (found : ((system web3 c).step p event).state.row e = some x) (known : x.signature = some signature) :
    ∃ response wire messageHash, response ∈ ((system web3 c).step p event).trace ∧
      Responded e wire signature messageHash response ∧ Signer.signatureOf web3 wire = .ok signature ∧
      x.messageHash = some messageHash ∧ Approved e ((system web3 c).step p event).trace messageHash := by
  have grows : p.trace ⊆ ((system web3 c).step p event).trace := by
    rcases (system web3 c).trace_of_step p event with same | ⟨i,choice,op,next,history,_,here,grown,state⟩
    · rw [same]
      exact List.Subset.refl _
    · rw [grown]
      exact List.subset_cons_self _ _
  have older : ∀ y, p.state.row e = some y → y.signature = some signature → y.messageHash = x.messageHash →
      ∃ response wire messageHash, response ∈ ((system web3 c).step p event).trace ∧
        Responded e wire signature messageHash response ∧ Signer.signatureOf web3 wire = .ok signature ∧
        x.messageHash = some messageHash ∧ Approved e ((system web3 c).step p event).trace messageHash := by
    intro y before signed hash
    obtain ⟨response,wire,messageHash,inside,responded,attached,hashed,approved⟩ :=
      provenance.origin y signature before signed
    exact ⟨response,wire,messageHash,grows inside,responded,attached,hash.symm.trans hashed,approved.mono grows⟩
  have change := change_of_step web3 c e disciplined event
  cases change with
  | same row => exact older x (row.symm.trans found) known rfl
  | created fresh absent row =>
    cases Option.some.inj (row.symm.trans found)
    cases known
  | moved performed here move recorded there expected row =>
    rename_i i choice states patch next history old
    cases Option.some.inj (row.symm.trans found)
    have signs := move.signs provenance.steady recorded there expected
    by_cases before : old.signature = some signature
    · obtain ⟨y,row',_,kept⟩ := Change.keeps
        (.moved performed here move recorded there expected row) provenance.steady there
      cases Option.some.inj (row.symm.trans row')
      exact older old there before (kept (by rw [before]; rfl)).2.symm
    · -- a signature the row did not have comes from the call that persists it
      have persists : ∃ authorizationId messageHash written limit,
          patch = persistPatch authorizationId messageHash written limit := by
        have after : patch.signature.or old.signature = some signature := known
        cases signs with
        | keeps none side =>
          rw [none,Option.none_or] at after
          exact absurd after before
        | first unsigned from_signing was persists => exact ⟨_,_,_,_,persists⟩
        | again there writes sent =>
          rw [writes,Option.some_or] at after
          exact absurd (there.trans after) before
      cases move with
      | persist responded checked attached nonempty approved =>
        cases Option.some.inj known
        exact ⟨_,_,_,grows (recorded (responded ▸ List.mem_cons_self)),checked,attached,rfl,
          (approved.mono recorded).mono grows⟩
      | _ =>
        obtain ⟨authorizationId,messageHash,written,limit,same⟩ := persists
        cases congrArg Patch.messageHash same

theorem provenance_step {e : String} {p : Pool} (event : Event Call Choice) (disciplined : Disciplined web3 c p)
    (provenance : Provenance web3 e p) : Provenance web3 e ((system web3 c).step p event) where
  steady := steady_step disciplined event provenance.steady
  rows _ known := rows_step disciplined provenance event known
  quotes _ _ member := quotes_step provenance event member
  hashed _ _ _ _ _ member := hashed_step disciplined provenance event member
  origin _ _ found known := origin_step disciplined provenance event found known

variable (web3 c) in
private theorem run_provenance (clock : ℤ) (events : List (Event Call Choice)) (e : String) :
    Disciplined web3 c ((system web3 c).run (Config.initial (State.initial clock)) events) ∧
      Provenance web3 e ((system web3 c).run (Config.initial (State.initial clock)) events) := by
  apply (system web3 c).run_induction (program_safe web3 c) (fun _ _ => True)
  · exact fun p event disciplined _ provenance => provenance_step event disciplined provenance
  · exact System.obeys_initial _
  · exact provenance_initial web3 e clock
  · exact (system web3 c).meets_of_forall (fun _ _ => trivial) _ _

private theorem approved_request {e : String} {p : Pool} (provenance : Provenance web3 e p) {messageHash : String}
    (approved : Approved e p.trace messageHash) :
    ∃ request, Request e p.state request ∧ request.messageHash = messageHash := by
  obtain ⟨q,request,⟨x,known,read⟩,asked,hash⟩ := approved
  obtain ⟨y,found,same⟩ := provenance.rows x known
  exact ⟨request,⟨y,q,found,by rw [same]; exact provenance.quotes _ _ read,asked⟩,hash⟩

end Approved

/-- The signature and the hash on the row are those of these bytes, and the hash is the one
of the approved request. -/
def Carries (web3 : Signer.Web3) (e wire : String) (request : Execution.SimulationRequest) (s : State) : Prop :=
  ∃ decoded x, Signer.decodeTransaction web3 wire = .ok decoded ∧ decoded.messageHash = request.messageHash ∧
    s.row e = some x ∧ x.messageHash = some decoded.messageHash ∧ x.signature = decoded.signatures.head?.join

private theorem carries_iff {web3 : Signer.Web3} {e wire signature : String} {request : Execution.SimulationRequest}
    {s : State} {x : Execution} (found : s.row e = some x) (hash : x.messageHash = some request.messageHash)
    (known : x.signature = some signature) (attached : Signer.signatureOf web3 wire = .ok signature) :
    Carries web3 e wire request s ↔ Over web3 (some wire) request.messageHash := by
  constructor
  · intro carries
    obtain ⟨decoded,y,read,same,_⟩ := carries
    exact ⟨wire,decoded,rfl,read,same⟩
  · intro replaced
    obtain ⟨other,decoded,same,read,agrees⟩ := replaced
    cases Option.some.inj same
    refine ⟨decoded,x,read,agrees,found,by rw [agrees]; exact hash,?_⟩
    simp only [Signer.signatureOf,read,Data.Result.bind_eq_ok,Except.ok.injEq,exists_eq_left',
      Data.Result.required_eq_ok] at attached
    rw [known,attached]

/-- In every run: the bytes a call is about to broadcast, and those a signature on the row
was checked against, come from an answer of the signer to a request for the approved
message, and are of that message exactly when the answer was. -/
theorem broadcast_approved_iff (web3 : Signer.Web3) (c : Deployment) (clock : ℤ) (events : List (Event Call Choice))
    (e : String) :
    (∀ i wire next history,
      ((system web3 c).run (Config.initial (State.initial clock)) events).threads i =
          some ⟨.perform (.broadcast e wire) next,history⟩ →
        ∃ request response signature,
          Request e ((system web3 c).run (Config.initial (State.initial clock)) events).state request ∧
          response ∈ history ∧ Responded e wire signature request.messageHash response ∧
          (Carries web3 e wire request ((system web3 c).run (Config.initial (State.initial clock)) events).state ↔
            Matches web3 request.messageHash response)) ∧
    ∀ x signature,
      ((system web3 c).run (Config.initial (State.initial clock)) events).state.row e = some x →
        x.signature = some signature → ∃ request response wire,
          Request e ((system web3 c).run (Config.initial (State.initial clock)) events).state request ∧
          response ∈ ((system web3 c).run (Config.initial (State.initial clock)) events).trace ∧
          Responded e wire signature request.messageHash response ∧
          (Carries web3 e wire request ((system web3 c).run (Config.initial (State.initial clock)) events).state ↔
            Matches web3 request.messageHash response) := by
  obtain ⟨disciplined,provenance⟩ := run_provenance web3 c clock events e
  generalize (system web3 c).run (Config.initial (State.initial clock)) events = p at *
  constructor
  · intro i wire next history here
    obtain ⟨authorizationId,messageHash,signature,limit,x,response,rest,newest,responded,attached⟩ :=
      disciplined.allowed here
    have recorded := disciplined.recorded here
    have persisted := recorded (newest ▸ List.mem_cons_self)
    obtain ⟨y,found,known⟩ := provenance.steady.stays _ persisted signature .persisted
    obtain ⟨z,there,hashed⟩ := provenance.hashed _ _ _ _ _ persisted
    cases Option.some.inj (found.symm.trans there)
    obtain ⟨_,_,_,_,_,_,hashed',approved⟩ := provenance.origin y signature found known
    cases Option.some.inj (hashed.symm.trans hashed')
    obtain ⟨request,asked,rfl⟩ := approved_request provenance approved
    refine ⟨request,response,signature,asked,by simp [newest],responded,?_⟩
    rw [carries_iff found hashed known attached,responded.matches_iff]
  · intro x signature found known
    obtain ⟨response,wire,messageHash,inside,responded,attached,hashed,approved⟩ :=
      provenance.origin x signature found known
    obtain ⟨request,asked,rfl⟩ := approved_request provenance approved
    refine ⟨request,response,wire,asked,inside,responded,?_⟩
    rw [carries_iff found hashed known attached,responded.matches_iff]

namespace Sample

/-- A signer that answers with another transaction, signed and well formed. -/
def otherReply : (op : Op) → Except String op.Ans
  | .sign _ _ _ => .ok ⟨some (Signer.Sample.wire Signer.Sample.signature 2).toBase64,
      some Signer.Sample.base58Signature,none⟩
  | op => settledReply op

def wire (data : UInt8) : String := (Signer.Sample.wire Signer.Sample.signature data).toBase64

/-- A submission, up to its broadcast. -/
def submission (reply : (op : Op) → Except String op.Ans) : List (Event Call Choice) :=
  approval ++ [.start (.submit "e")] ++ stepsWith reply 2 12

def submitted (reply : (op : Op) → Except String op.Ans) : Pool :=
  (system Signer.Sample.web3 deployment).run (Config.initial (State.initial 0)) (submission reply)

/-- Whether the call stands before the broadcast of these bytes. -/
def broadcasting (bytes : String) : Option (Thread Op Op.Ans String) → Bool
  | some ⟨.perform (.broadcast id wire) _,_⟩ => id = "e" ∧ wire = bytes
  | _ => false

theorem broadcasting_iff {bytes : String} {thread : Option (Thread Op Op.Ans String)} :
    broadcasting bytes thread = true ↔ ∃ next history, thread = some ⟨.perform (.broadcast "e" bytes) next,history⟩ := by
  unfold broadcasting
  split
  · rename_i id wire next history
    simp only [decide_eq_true_eq,Option.some.injEq,Thread.mk.injEq]
    constructor
    · intro same
      obtain ⟨rfl,rfl⟩ := same
      exact ⟨next,history,rfl,rfl⟩
    · intro found
      obtain ⟨_,_,same,_⟩ := found
      cases same
      exact ⟨rfl,rfl⟩
  · rename_i other
    constructor
    · intro impossible
      cases impossible
    · intro found
      obtain ⟨next,history,same⟩ := found
      exact absurd same (other "e" bytes next history)

end Sample

open Sample in
/-- The signer signs what it was asked to. -/
theorem broadcast_approved_settlement : ∃ request response signature,
    Request "e" (submitted settledReply).state request ∧
      Responded "e" (wire 1) signature request.messageHash response ∧
      (Carries Signer.Sample.web3 "e" (wire 1) request (submitted settledReply).state ↔
        Matches Signer.Sample.web3 request.messageHash response) := by
  have stands : broadcasting (wire 1) ((submitted settledReply).threads 2) = true := by decide +kernel
  obtain ⟨next,history,here⟩ := broadcasting_iff.mp stands
  rw [submitted] at here ⊢
  have approved := (broadcast_approved_iff Signer.Sample.web3 deployment 0 (submission settledReply) "e").1
  obtain ⟨request,response,signature,asked,_,responded,iff⟩ := approved 2 (wire 1) next history here
  exact ⟨request,response,signature,asked,responded,iff⟩

open Sample in
/-- The signer signs another message: nothing compares it with the approved one, and a
call is about to broadcast it. -/
theorem broadcast_unapproved :
    (∃ next history, (submitted otherReply).threads 2 = some ⟨.perform (.broadcast "e" (wire 2)) next,history⟩) ∧
      Request "e" (submitted otherReply).state request ∧
      ¬Carries Signer.Sample.web3 "e" (wire 2) request (submitted otherReply).state := by
  have stands : broadcasting (wire 2) ((submitted otherReply).threads 2) = true := by decide +kernel
  have asked : (((submitted otherReply).state.row "e").bind fun x =>
      (submitted otherReply).state.store.getQuote x.quoteId).bind (·.request) = some request := by decide +kernel
  refine ⟨broadcasting_iff.mp stands,?_,?_⟩
  · obtain ⟨q,quoted,request⟩ := Option.bind_eq_some_iff.mp asked
    obtain ⟨x,found,stored⟩ := Option.bind_eq_some_iff.mp quoted
    exact ⟨x,q,found,stored,request⟩
  · intro carries
    obtain ⟨decoded,_,read,same,_⟩ := carries
    cases read.symm.trans (Signer.Sample.decodes (.inr rfl))
    revert same
    decide

end RatifyOs.Trading
