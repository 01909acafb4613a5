import RatifyOs.Kernel.Gateway

/-! What `#live` and `recover` may do after what they have done, whatever the ports answer. -/
namespace RatifyOs.Kernel
open Async Data
open Async.Program hiding pure throw

abbrev Record := Entry Op Op.Ans Failure

/-- The entry made the reservation. -/
def owns (r : String) : Record → Bool
  | ⟨.reserve _,.ok (.ok id _ _)⟩ => id = r
  | _ => false

def inserts (id : String) : Record → Bool
  | ⟨.insertTrade row _,.ok _⟩ => row.id = id
  | _ => false

/-- The entry wrote the state of the trade. -/
def writes (id : String) : Record → Bool
  | ⟨.setState name _ _,_⟩ => name = id
  | ⟨.fail name _ _ _,_⟩ => name = id
  | _ => false

/-- The entry gave the trade a signature. -/
def signs (id : String) : Record → Bool
  | ⟨.persistSigned name _ _ _,_⟩ => name = id
  | ⟨.setSignature name _ _,_⟩ => name = id
  | _ => false

def listings : Record → List TradeRow
  | ⟨.pendingSent,.ok rows⟩ => rows
  | _ => []

def lists (id : String) (entry : Record) : Bool := (listings entry).any fun row => row.id = id

def listsReservation (r : String) (entry : Record) : Bool :=
  (listings entry).any fun row => row.reservationId = some r

def consumes (r : String) : Record → Bool
  | ⟨.consumeReservation id,_⟩ => id = r
  | _ => false

def broadcasts : Record → Bool
  | ⟨.broadcast _ _ _,_⟩ => true
  | _ => false

/-- What is awaited, and the two inserts that a key can refuse. -/
def Op.mayFail : Op → Bool
  | policy | inspect _ _ | readPair _ _ _ | readPosition _ | simulate _ | sign _ | broadcast _ _ _ | confirm _ _
  | reserve _ | insertTrade _ _ => true
  | _ => false

def breaks : Record → Bool
  | ⟨op,.error _⟩ => !op.mayFail
  | _ => false

/-- The outcome of the transaction is settled against the trade, or its reading failed. -/
def unsettles : Record → Bool
  | ⟨.broadcast _ _ _,.error _⟩ => true
  | ⟨.confirm _ _,.error _⟩ => true
  | ⟨.confirm _ _,.ok status⟩ => status ≠ .confirmed
  | ⟨.readPair _ _ _,.error _⟩ => true
  | _ => false

/-- From the broadcast on, something has unsettled the trade. -/
def excused : Log → Bool
  | [] => false
  | entry :: h => unsettles entry && (entry :: h).any broadcasts || excused h

def verdict : Record → Option Bool
  | ⟨.confirm _ _,.ok .confirmed⟩ => some true
  | ⟨.readPair _ _ _,.error _⟩ => some false
  | _ => none

/-- The confirmer said `confirmed`, and no balance read after that has failed. -/
def concluded : Log → Bool
  | [] => false
  | entry :: h => (verdict entry).getD (concluded h)

def writeOf (id : String) : Record → Option TradeState
  | ⟨.setState name state _,_⟩ => if name = id then some state else none
  | ⟨.fail name state _ _,_⟩ => if name = id then some state else none
  | ⟨.insertTrade row _,.ok _⟩ => if row.id = id then some .reserved else none
  | _ => none

def lastWrite (id : String) : Log → Option TradeState
  | [] => none
  | entry :: h => (writeOf id entry).orElse fun _ => lastWrite id h

def TradeState.terminal : TradeState → Bool
  | confirmed | expired | errored | rejected => true
  | reserved | sent => false

def allow (h : Log) : Op → Prop
  | .insertTrade _ reservationId => (∀ r, reservationId = some r → h.any (owns r)) ∧ ∀ id, h.any (inserts id) = false
  | .setState id state _ =>
    (state = .sent ∧ h.any (inserts id) ∧ h.any (writes id) = false ∧ h.any (signs id)) ∨
      (state = .confirmed ∧ (h.any (inserts id) ∨ h.any (lists id)))
  | .fail id state _ _ => state.terminal ∧ (h.any (inserts id) ∨ h.any (lists id))
  | .releaseReservation r =>
    (h.any (owns r) ∨ h.any (listsReservation r)) ∧ (h.any broadcasts → excused h ∨ h.any breaks)
  | .consumeReservation r => h.any (owns r) ∨ h.any (listsReservation r)
  | .persistSigned id _ _ _ => h.any (inserts id)
  | .setSignature id _ _ => h.any (inserts id)
  | .pendingSent => h = []
  | _ => True

/-- What a call that has ended leaves behind. -/
def Settles (h : Log) : Prop :=
  concluded h → h.any breaks ∨
    (∀ id, h.any (inserts id) → lastWrite id h = some .confirmed) ∧ ∀ r, h.any (owns r) → h.any (consumes r)

/-- What the call has made so far. -/
structure Made (tradeId : String) (reservationId : Option String) (inserted : Bool) (h : Log) : Prop where
  owned : ∀ r, h.any (owns r) = true ↔ reservationId = some r
  row : ∀ id, h.any (inserts id) = true ↔ inserted = true ∧ id = tradeId

/-- Nothing has been written, sent or confirmed yet. -/
structure Unsent (h : Log) : Prop where
  written : ∀ id, h.any (writes id) = false
  handed : h.any broadcasts = false
  waiting : concluded h = false

/-- The call may be abandoned here. -/
structure Lost (tradeId : String) (reservationId : Option String) (inserted : Bool) (h : Log) : Prop where
  made : Made tradeId reservationId inserted h
  excuse : h.any broadcasts → excused h ∨ h.any breaks
  unconcluded : concluded h → h.any breaks

/-- Whatever it answers, the call has made, sent and learned nothing. -/
def Op.inert : Op → Bool
  | reserve _ | insertTrade _ _ | broadcast _ _ _ | confirm _ _ | readPair _ _ _ => false
  | _ => true

def Op.moves : Op → Bool
  | setState _ _ _ | fail _ _ _ _ => true
  | _ => false

section Entries
variable {op : Op} {answer : Except Failure op.Ans}

private theorem owns_inert (inert : op.inert) (r : String) : owns r ⟨op,answer⟩ = false := by
  cases op <;> first | rfl | cases inert

private theorem inserts_inert (inert : op.inert) (id : String) : inserts id ⟨op,answer⟩ = false := by
  cases op <;> first | rfl | cases inert

private theorem broadcasts_inert (inert : op.inert) : broadcasts ⟨op,answer⟩ = false := by
  cases op <;> first | rfl | cases inert

private theorem verdict_inert (inert : op.inert) : verdict ⟨op,answer⟩ = none := by
  cases op <;> first | rfl | cases inert

private theorem writes_still (still : op.moves = false) (id : String) : writes id ⟨op,answer⟩ = false := by
  cases op <;> first | rfl | cases still

private theorem breaks_error (sure : op.mayFail = false) (error : Failure) : breaks ⟨op,.error error⟩ = true := by
  simp [breaks,sure]

end Entries

section Live
variable {d : Deployment} {intent : TradeIntent} {o : ExecuteOptions} {tradeId : String} {reservationId : Option String}
  {inserted : Bool} {h : Log} {op : Op}

theorem Made.inert (made : Made tradeId reservationId inserted h) (inert : op.inert) (answer : Except Failure op.Ans) :
    Made tradeId reservationId inserted (⟨op,answer⟩ :: h) where
  owned r := by simp [owns_inert inert,made.owned]
  row id := by simp [inserts_inert inert,made.row]

theorem Unsent.inert (unsent : Unsent h) (inert : op.inert) (still : op.moves = false) (answer : Except Failure op.Ans) :
    Unsent (⟨op,answer⟩ :: h) where
  written id := by simp only [List.any_cons,writes_still still,unsent.written,Bool.or_self]
  handed := by simp only [List.any_cons,broadcasts_inert inert,unsent.handed,Bool.or_self]
  waiting := by simp only [concluded,verdict_inert inert,unsent.waiting,Option.getD_none]

theorem Made.lost (made : Made tradeId reservationId inserted h) (unsent : Unsent h) :
    Lost tradeId reservationId inserted h where
  made
  excuse handed := by
    rw [unsent.handed] at handed
    cases handed
  unconcluded done := by
    rw [unsent.waiting] at done
    cases done

theorem Made.broken (made : Made tradeId reservationId inserted h) (inert : op.inert) (sure : op.mayFail = false)
    (error : Failure) : Lost tradeId reservationId inserted (⟨op,.error error⟩ :: h) where
  made := made.inert inert _
  excuse _ := .inr (by simp [breaks_error sure])
  unconcluded _ := by simp [breaks_error sure]

theorem Lost.inert (lost : Lost tradeId reservationId inserted h) (inert : op.inert) (answer : Except Failure op.Ans) :
    Lost tradeId reservationId inserted (⟨op,answer⟩ :: h) where
  made := lost.made.inert inert answer
  excuse handed := by
    simp only [List.any_cons,broadcasts_inert inert,Bool.false_or] at handed
    rcases lost.excuse handed with excused | broken
    · exact .inl (by simp [RatifyOs.Kernel.excused,excused])
    · exact .inr (by simp [broken])
  unconcluded done := by
    simp only [concluded,verdict_inert inert,Option.getD_none] at done
    simp [lost.unconcluded done]

theorem Lost.settles (lost : Lost tradeId reservationId inserted h) : Settles h :=
  fun done => .inl (lost.unconcluded done)

theorem Lost.call (lost : Lost tradeId reservationId inserted h) (inert : op.inert) (allowed : allow h op) :
    (call op : Gateway op.Ans).wp allow (fun _ => Lost tradeId reservationId inserted)
      (fun _ => Lost tradeId reservationId inserted) h := by
  rw [wp_call]
  exact ⟨allowed,fun value => lost.inert inert (.ok value),fun error => lost.inert inert (.error error)⟩

theorem Lost.then {α β : Type} {p : Gateway α} {f : α → Gateway β} {Q : β → Log → Prop}
    (first : p.wp allow (fun _ => Lost tradeId reservationId inserted) (fun _ => Lost tradeId reservationId inserted) h)
    (rest : ∀ value h, Lost tradeId reservationId inserted h →
      (f value).wp allow Q (fun _ => Lost tradeId reservationId inserted) h) :
    (p >>= f).wp allow Q (fun _ => Lost tradeId reservationId inserted) h := by
  rw [wp_bind]
  exact wp_mono p first rest fun _ _ => id

theorem Lost.journal (lost : Lost tradeId reservationId inserted h) (type name : String) (details : List (String × Json)) :
    (journal type name details).wp allow (fun _ => Lost tradeId reservationId inserted)
      (fun _ => Lost tradeId reservationId inserted) h :=
  Lost.then (lost.call rfl trivial) fun _ _ lost => lost.call rfl trivial

theorem Lost.release (lost : Lost tradeId reservationId inserted h) :
    (release reservationId).wp allow (fun _ => Lost tradeId reservationId inserted)
      (fun _ => Lost tradeId reservationId inserted) h := by
  cases reservationId with
  | none => exact lost
  | some r => exact lost.call rfl ⟨.inl ((lost.made.owned r).mpr rfl),lost.excuse⟩

theorem abandon_wp (err : Failure) (lost : Lost tradeId reservationId inserted h) :
    (abandon tradeId reservationId inserted err).wp allow (fun _ => Lost tradeId reservationId inserted)
      (fun _ => Lost tradeId reservationId inserted) h := by
  unfold abandon
  refine Lost.then lost.release fun _ h lost => ?_
  cases inserted with
  | false => exact Lost.then (lost.journal _ _ _) fun _ h lost => (wp_pure _).mpr lost
  | true =>
    refine Lost.then (lost.call rfl trivial) fun now h lost => ?_
    have own := (lost.made.row tradeId).mpr ⟨rfl,rfl⟩
    refine Lost.then (lost.call rfl ⟨rfl,.inl own⟩) fun _ h lost => ?_
    exact Lost.then (lost.journal _ _ _) fun _ h lost => (wp_pure _).mpr lost

theorem giveUp_wp (status : ConfirmStatus) (lost : Lost tradeId reservationId true h) :
    (giveUp tradeId reservationId status).wp allow (fun _ => Lost tradeId reservationId true)
      (fun _ => Lost tradeId reservationId true) h := by
  unfold giveUp
  refine Lost.then lost.release fun _ h lost => ?_
  refine Lost.then (lost.call rfl trivial) fun now h lost => ?_
  have own := (lost.made.row tradeId).mpr ⟨rfl,rfl⟩
  refine Lost.then (lost.call rfl ⟨?_,.inl own⟩) fun _ h lost => ?_
  · split <;> rfl
  · exact Lost.then (lost.journal _ _ _) fun _ h lost => (wp_pure _).mpr lost

/-- The transaction has been handed to the broadcaster. -/
structure Handed (tradeId : String) (reservationId : Option String) (h : Log) : Prop where
  made : Made tradeId reservationId true h
  handed : h.any broadcasts

theorem Made.entry (made : Made tradeId reservationId inserted h) {entry : Record} (owned : ∀ r, owns r entry = false)
    (row : ∀ id, inserts id entry = false) : Made tradeId reservationId inserted (entry :: h) where
  owned r := by simp [owned,made.owned]
  row id := by simp [row,made.row]

theorem Handed.inert (sent : Handed tradeId reservationId h) (op : Op) (inert : op.inert) (answer : Except Failure op.Ans) :
    Handed tradeId reservationId (⟨op,answer⟩ :: h) where
  made := sent.made.inert inert answer
  handed := by simp [sent.handed]

theorem Handed.unsettled (sent : Handed tradeId reservationId h) {entry : Record} (unsettles : unsettles entry)
    (made : Made tradeId reservationId true (entry :: h)) (unconcluded : verdict entry = some false ∨
      verdict entry = none ∧ concluded h = false) : Lost tradeId reservationId true (entry :: h) where
  made
  excuse _ := .inl (by simp [excused,unsettles,sent.handed])
  unconcluded done := by
    rcases unconcluded with failed | ⟨silent,waiting⟩
    · simp [concluded,failed] at done
    · simp [concluded,silent,waiting] at done

theorem Handed.call (sent : Handed tradeId reservationId h) (inert : op.inert) (sure : op.mayFail = false)
    (allowed : allow h op) :
    (call op : Gateway op.Ans).wp allow (fun value after => after = ⟨op,.ok value⟩ :: h)
      (fun _ => Lost tradeId reservationId true) h := by
  rw [wp_call]
  exact ⟨allowed,fun value => rfl,fun error => sent.made.broken inert sure error⟩

theorem Handed.then {α β : Type} {p : Gateway α} {f : α → Gateway β} {P : α → Log → Prop} {Q : β → Log → Prop}
    (first : p.wp allow P (fun _ => Lost tradeId reservationId true) h)
    (rest : ∀ value h, P value h → (f value).wp allow Q (fun _ => Lost tradeId reservationId true) h) :
    (p >>= f).wp allow Q (fun _ => Lost tradeId reservationId true) h := by
  rw [wp_bind]
  exact wp_mono p first rest fun _ _ => id

theorem settle_wp (outputDelta : ℤ) (prePosition : Option ℤ) (sent : Handed tradeId reservationId h) :
    (settle d intent outputDelta prePosition).wp allow (fun _ => Handed tradeId reservationId)
      (fun _ => Lost tradeId reservationId true) h := by
  unfold settle
  split
  · simp only [wp_tryCatch,wp_bind,wp_call,wp_pure]
    exact ⟨trivial,fun _ => sent.inert _ rfl _,fun _ => sent.inert _ rfl _⟩
  · exact sent

/-- Nothing is left to do but to write it down. -/
structure Concluded (tradeId : String) (reservationId : Option String) (h : Log) : Prop where
  sent : Handed tradeId reservationId h
  last : lastWrite tradeId h = some .confirmed
  consumed : ∀ r, reservationId = some r → h.any (consumes r)

theorem Concluded.settles (done : Concluded tradeId reservationId h) : Settles h := by
  intro _
  refine .inr ⟨?_,?_⟩
  · intro id own
    rw [((done.sent.made.row id).mp own).2]
    exact done.last
  · intro r own
    exact done.consumed r ((done.sent.made.owned r).mp own)

theorem conclude_wp (signature : String) (pre : Pair) (prePosition : Option ℤ) (sent : Handed tradeId reservationId h) :
    (conclude d intent tradeId reservationId signature pre prePosition).wp allow (fun _ => Settles)
      (fun _ => Lost tradeId reservationId true) h := by
  have read : (readPair d intent).wp allow (fun _ => Handed tradeId reservationId)
      (fun _ => Lost tradeId reservationId true) h := by
    simp only [readPair,wp_call]
    refine ⟨trivial,fun post => ?_,fun error => ?_⟩
    · exact ⟨sent.made.entry (fun _ => rfl) (fun _ => rfl),by simp [sent.handed]⟩
    · exact sent.unsettled rfl (sent.made.entry (fun _ => rfl) (fun _ => rfl)) (.inl rfl)
  unfold conclude
  refine Handed.then read fun post h sent => ?_
  refine Handed.then (settle_wp _ _ sent) fun settled h sent => ?_
  have consumed : (consume reservationId).wp allow
      (fun _ h => Handed tradeId reservationId h ∧ ∀ r, reservationId = some r → h.any (consumes r))
      (fun _ => Lost tradeId reservationId true) h := by
    cases reservationId with
    | none => exact ⟨sent,by simp⟩
    | some r =>
      refine wp_mono _ (sent.call rfl rfl (.inl ((sent.made.owned r).mpr rfl))) ?_ fun _ _ => id
      intro _ after same
      subst same
      refine ⟨sent.inert _ rfl _,?_⟩
      intro r' same
      cases same
      simp [consumes]
  refine Handed.then consumed fun _ h both => ?_
  obtain ⟨sent,spent⟩ := both
  refine Handed.then (sent.call rfl rfl trivial) fun now after same => ?_
  subst same
  have later := sent.inert .now rfl (.ok now)
  refine Handed.then (later.call rfl rfl (.inr ⟨rfl,.inl ((later.made.row tradeId).mpr ⟨rfl,rfl⟩)⟩)) fun _ after same => ?_
  subst same
  have written := later.inert (.setState tradeId .confirmed now) rfl (.ok ())
  simp only [journal,wp_bind]
  refine wp_mono _ (written.call rfl rfl trivial) ?_ fun _ _ => id
  intro stamp after same
  subst same
  have stamped := written.inert .now rfl (.ok stamp)
  refine wp_mono _ (stamped.call rfl rfl trivial) ?_ fun _ _ => id
  intro _ after same
  subst same
  refine Concluded.settles ⟨stamped.inert _ rfl _,?_,?_⟩
  · simp [lastWrite,writeOf]
  · intro r own
    simp [spent r own]

/-- The row is there and nothing has happened to it. -/
structure Ready (tradeId : String) (reservationId : Option String) (inserted : Bool) (h : Log) : Prop where
  made : Made tradeId reservationId inserted h
  unsent : Unsent h

theorem Ready.lost (ready : Ready tradeId reservationId inserted h) : Lost tradeId reservationId inserted h :=
  ready.made.lost ready.unsent

theorem Ready.inert (ready : Ready tradeId reservationId inserted h) (inert : op.inert) (still : op.moves = false)
    (answer : Except Failure op.Ans) : Ready tradeId reservationId inserted (⟨op,answer⟩ :: h) :=
  ⟨ready.made.inert inert answer,ready.unsent.inert inert still answer⟩

theorem Ready.call (ready : Ready tradeId reservationId inserted h) (inert : op.inert) (still : op.moves = false)
    (allowed : allow h op) :
    (call op : Gateway op.Ans).wp allow (fun _ => Ready tradeId reservationId inserted)
      (fun _ => Lost tradeId reservationId inserted) h := by
  rw [wp_call]
  exact ⟨allowed,fun value => ready.inert inert still (.ok value),
    fun error => (ready.inert inert still (.error error)).lost⟩

theorem Ready.then {α β : Type} {p : Gateway α} {f : α → Gateway β} {P : α → Log → Prop} {Q : β → Log → Prop}
    (first : p.wp allow P (fun _ => Lost tradeId reservationId inserted) h)
    (rest : ∀ value h, P value h → (f value).wp allow Q (fun _ => Lost tradeId reservationId inserted) h) :
    (p >>= f).wp allow Q (fun _ => Lost tradeId reservationId inserted) h := by
  rw [wp_bind]
  exact wp_mono p first rest fun _ _ => id

theorem Ready.reject (ready : Ready tradeId reservationId inserted h) (c : Prop) [Decidable c] (error : Failure) :
    (reject c error : Gateway Unit).wp allow (fun _ => Ready tradeId reservationId inserted)
      (fun _ => Lost tradeId reservationId inserted) h := by
  rw [wp_reject]
  exact ⟨fun _ => ready.lost,fun _ => ready⟩

theorem Ready.journal (ready : Ready tradeId reservationId inserted h) (type name : String)
    (details : List (String × Json)) :
    (journal type name details).wp allow (fun _ => Ready tradeId reservationId inserted)
      (fun _ => Lost tradeId reservationId inserted) h :=
  Ready.then (ready.call rfl rfl trivial) fun _ _ ready => ready.call rfl rfl trivial

theorem land_wp (now : ℤ) (bucket : Option QuoteBucket) (pre : Pair) (prePosition : Option ℤ)
    (ready : Ready tradeId reservationId true h) :
    (land d intent o tradeId now bucket reservationId pre prePosition).wp allow (fun _ => Settles)
      (fun _ => Lost tradeId reservationId true) h := by
  unfold land
  refine Ready.then (ready.call rfl rfl trivial) fun _ h ready => ?_
  have reserved : ∀ event, (onlyIf (reservationId.isSome = true) (call (Op.appendJournal event)) : Gateway Unit).wp allow
      (fun _ => Ready tradeId reservationId true) (fun _ => Lost tradeId reservationId true) h := by
    intro event
    rw [wp_onlyIf]
    exact ⟨fun _ => ready.call rfl rfl trivial,fun _ => ready⟩
  refine Ready.then (reserved _) fun _ h ready => ?_
  refine Ready.then (ready.call rfl rfl trivial) fun sim h ready => ?_
  refine Ready.then (ready.journal _ _ _) fun _ h ready => ?_
  refine Ready.then (ready.reject _ _) fun _ h ready => ?_
  refine Ready.then (ready.call rfl rfl trivial) fun signed h ready => ?_
  refine Ready.then (ready.call rfl rfl trivial) fun now h ready => ?_
  refine Ready.then (ready.call rfl rfl ((ready.made.row tradeId).mpr ⟨rfl,rfl⟩)) fun _ h ready => ?_
  refine Ready.then (ready.journal _ _ _) fun _ h ready => ?_
  refine Ready.then (ready.reject _ _) fun _ h ready => ?_
  have made : ∀ answer, Made tradeId reservationId true (⟨.broadcast intent.landMode signed intent.landHandle,answer⟩ :: h) :=
    fun answer => ready.made.entry (fun _ => rfl) fun _ => rfl
  have broadcast : (tryCatch (call (Op.broadcast intent.landMode signed intent.landHandle) : Gateway String) fun e =>
      throw (Failure.guard .broadcastFailed e.message [])).wp allow
      (fun _ h => Handed tradeId reservationId h ∧ concluded h = false ∧ ∀ id, h.any (writes id) = false)
      (fun _ => Lost tradeId reservationId true) h := by
    rw [wp_tryCatch,wp_call]
    refine ⟨trivial,fun signature => ⟨⟨made _,rfl⟩,ready.unsent.waiting,ready.unsent.written⟩,fun error => ?_⟩
    refine ⟨made _,fun _ => .inl rfl,fun done => ?_⟩
    have waiting := ready.unsent.waiting
    simp [concluded,verdict,waiting] at done
  refine Ready.then broadcast fun signature h both => ?_
  obtain ⟨sent,waiting,unwritten⟩ := both
  refine Handed.then (sent.call rfl rfl trivial) fun t₁ after same => ?_
  subst same
  have sent := sent.inert .now rfl (.ok t₁)
  refine Handed.then (sent.call rfl rfl ((sent.made.row tradeId).mpr ⟨rfl,rfl⟩)) fun _ after same => ?_
  subst same
  have sent := sent.inert (.setSignature tradeId signature t₁) rfl (.ok ())
  refine Handed.then (sent.call rfl rfl trivial) fun t₂ after same => ?_
  subst same
  have sent := sent.inert .now rfl (.ok t₂)
  have own := (sent.made.row tradeId).mpr ⟨rfl,rfl⟩
  refine Handed.then (sent.call rfl rfl (.inl ⟨rfl,own,by simp [writes,unwritten],by simp [signs]⟩)) fun _ after same => ?_
  subst same
  have sent := sent.inert (.setState tradeId .sent t₂) rfl (.ok ())
  simp only [journal,wp_bind]
  refine wp_mono _ (sent.call rfl rfl trivial) ?_ fun _ _ => id
  intro t₃ after same
  subst same
  have sent := sent.inert .now rfl (.ok t₃)
  refine wp_mono _ (sent.call rfl rfl trivial) ?_ fun _ _ => id
  intro _ after same
  subst same
  have sent := sent.inert (.appendJournal ⟨"trade.sent",tradeId,t₃,[("signature",.str signature)]⟩) rfl (.ok ())
  have made : ∀ answer, Made tradeId reservationId true (⟨.confirm signature intent.lastValidBlockHeight,answer⟩ :: _) :=
    fun answer => sent.made.entry (fun _ => rfl) fun _ => rfl
  rw [wp_bind,wp_call]
  refine ⟨trivial,fun status => ?_,fun error => sent.unsettled rfl (made _) (.inr ⟨rfl,waiting⟩)⟩
  rw [wp_ite]
  refine ⟨fun other => ?_,fun confirmed => ?_⟩
  · have made := made (.ok status)
    have lost := sent.unsettled (by simpa [unsettles] using other) made (.inr ⟨by cases status <;> first | rfl | exact absurd rfl other,waiting⟩)
    exact wp_mono _ (giveUp_wp status lost) (fun _ _ lost => lost.settles) fun _ _ => id
  · exact conclude_wp signature pre prePosition ⟨made _,by simp [sent.handed]⟩

theorem register_wp (now : ℤ) (bucket : Option QuoteBucket) (ready : Ready tradeId reservationId false h) :
    (register d intent o tradeId now bucket reservationId).wp allow (fun _ => Ready tradeId reservationId true)
      (fun _ => Lost tradeId reservationId false) h := by
  unfold register
  have read : (readPair d intent).wp allow (fun _ => Ready tradeId reservationId false)
      (fun _ => Lost tradeId reservationId false) h := by
    have still : ∀ answer, verdict ⟨.readPair d.pubkey intent.inputMint intent.outputMint,answer⟩ ≠ some true →
        Ready tradeId reservationId false (⟨.readPair d.pubkey intent.inputMint intent.outputMint,answer⟩ :: h) := by
      intro answer unconfirmed
      refine ⟨ready.made.entry (fun _ => rfl) (fun _ => rfl),ready.unsent.written,ready.unsent.handed,?_⟩
      cases answer with
      | ok pair => exact ready.unsent.waiting
      | error error => rfl
    simp only [readPair,wp_call]
    exact ⟨trivial,fun pair => still _ (by simp [verdict]),fun error => (still _ (by simp [verdict])).lost⟩
  refine Ready.then read fun pre h ready => ?_
  have position : (readPosition d intent).wp allow (fun _ => Ready tradeId reservationId false)
      (fun _ => Lost tradeId reservationId false) h := by
    unfold readPosition
    split
    · exact Ready.then (ready.call rfl rfl trivial) fun _ h ready => (wp_pure _).mpr ready
    · exact ready
  refine Ready.then position fun prePosition h ready => ?_
  refine Ready.then (ready.reject _ _) fun _ h ready => ?_
  have absent : ∀ id, h.any (inserts id) = false := by
    intro id
    by_contra some_
    have own := (ready.made.row id).mp (by simpa using some_)
    cases own.1
  rw [wp_bind,wp_call]
  refine ⟨⟨fun r own => (ready.made.owned r).mpr own,absent⟩,fun _ => ?_,fun error => ?_⟩
  · refine ⟨⟨ready.made.owned,fun id => ?_⟩,ready.unsent.written,ready.unsent.handed,ready.unsent.waiting⟩
    simp [inserts,absent,eq_comm]
  · exact Ready.lost ⟨⟨ready.made.owned,ready.made.row⟩,
      ⟨ready.unsent.written,ready.unsent.handed,ready.unsent.waiting⟩⟩

theorem guarded_wp (now : ℤ) (ready : Ready tradeId none false h) :
    (guarded d intent o tradeId now).wp allow (fun outcome => Ready tradeId outcome.2 false)
      (fun _ => Lost tradeId none false) h := by
  unfold guarded
  refine Ready.then (ready.call rfl rfl trivial) fun policy h ready => ?_
  have checked : ∀ result : Except Failure Unit, (Program.ofExcept result : Gateway Unit).wp allow
      (fun _ after => after = h) (fun _ => Lost tradeId none false) h := by
    intro result
    rw [wp_ofExcept]
    exact ⟨fun _ _ => rfl,fun _ _ => ready.lost⟩
  refine Ready.then (checked _) fun _ after same => ?_
  subst same
  refine Ready.then (checked _) fun _ after same => ?_
  subst same
  have supported : (assertMintsSupported intent policy).wp allow (fun _ => Ready tradeId none false)
      (fun _ => Lost tradeId none false) after := by
    unfold assertMintsSupported
    exact Ready.then (ready.call rfl rfl trivial) fun infos h (ready : Ready tradeId none false h) => ready.reject _ _
  refine Ready.then supported fun _ h ready => ?_
  cases quoteBucketFor intent.inputMint with
  | none => exact ready
  | some bucket =>
    simp only [wp_bind,wp_call]
    have unsent : ∀ args answer, Unsent (⟨.reserve args,answer⟩ :: h) :=
      fun args answer => ⟨ready.unsent.written,ready.unsent.handed,ready.unsent.waiting⟩
    refine ⟨trivial,fun outcome => ?_,fun error => ?_⟩
    · cases outcome with
      | ok reservationId hour day =>
        refine ⟨⟨fun r => ?_,ready.made.row⟩,unsent _ _⟩
        have none_ : h.any (owns r) = false := by
          by_contra some_
          cases (ready.made.owned r).mp (by simpa using some_)
        simp [owns,none_]
      | denied reason cap would =>
        have made : Made tradeId none false h := ready.made
        exact Ready.lost ⟨⟨made.owned,made.row⟩,unsent _ _⟩
    · exact Ready.lost ⟨⟨ready.made.owned,ready.made.row⟩,unsent _ _⟩

theorem live_wp : (live d intent o).wp allow (fun _ => Settles) (fun _ => Settles) [] := by
  have nothing : ∀ h : Log, concluded h = false → Settles h := by
    intro h waiting done
    rw [waiting] at done
    cases done
  unfold live
  simp only [wp_bind,wp_call]
  refine ⟨trivial,fun now => ⟨trivial,fun tradeId => ⟨trivial,fun claimed => ?_,fun _ => nothing _ rfl⟩,
    fun _ => nothing _ rfl⟩,fun _ => nothing _ rfl⟩
  have lost : ∀ {reservationId inserted}, ∀ error h, Lost tradeId reservationId inserted h →
      (abandon tradeId reservationId inserted error).wp allow (fun _ => Settles) (fun _ => Settles) h := by
    intro reservationId inserted error h lost
    exact wp_mono _ (abandon_wp error lost) (fun _ _ lost => lost.settles) fun _ _ lost => lost.settles
  rw [wp_ite]
  refine ⟨fun _ => ?_,fun _ => ?_⟩
  rotate_left
  · rw [wp_bind,wp_call]
    exact ⟨trivial,fun _ => nothing _ rfl,fun _ => nothing _ rfl⟩
  have ready : Ready tradeId none false
      [⟨.claimIdempotency o.idempotencyKey tradeId now,.ok claimed⟩,⟨.newTradeId,.ok tradeId⟩,⟨.now,.ok now⟩] :=
    ⟨⟨fun r => by simp [owns],fun id => by simp [inserts]⟩,fun id => rfl,rfl,rfl⟩
  rw [wp_attempt]
  refine wp_mono _ (guarded_wp now ready) (fun outcome h ready => ?_) lost
  rw [wp_attempt]
  refine wp_mono _ (register_wp now outcome.1 ready) (fun baseline h ready => ?_) lost
  rw [wp_attempt]
  exact wp_mono _ (land_wp now outcome.1 baseline.1 baseline.2 ready) (fun _ _ settles => settles) lost

end Live

section Recover
variable {h : Log}

/-- Nothing here was made or sent by the call itself. -/
structure Plain (h : Log) : Prop where
  unowned : ∀ r, h.any (owns r) = false
  absent : ∀ id, h.any (inserts id) = false
  unhanded : h.any broadcasts = false

theorem Plain.settles (plain : Plain h) : Settles h := by
  intro _
  exact .inr ⟨fun id => by simp [plain.absent id],fun r => by simp [plain.unowned r]⟩

/-- The entry writes a terminal state. -/
def ends (id : String) : Record → Bool
  | ⟨.setState name state _,_⟩ => name = id ∧ state.terminal
  | ⟨.fail name state _ _,_⟩ => name = id ∧ state.terminal
  | _ => false

/-- The entry releases or consumes the reservation. -/
def closes (r : String) : Record → Bool
  | ⟨.releaseReservation id,_⟩ => id = r
  | ⟨.consumeReservation id,_⟩ => id = r
  | _ => false

structure Treated (row : TradeRow) (h : Log) : Prop where
  ended : h.any (ends row.id)
  closed : ∀ r, truthy row.reservationId = some r → h.any (closes r)
  checked : ∀ signature, truthy row.signature = some signature →
    ∃ status, ⟨.confirm signature row.lastValidBlockHeight,.ok status⟩ ∈ h

theorem Treated.mono {row : TradeRow} {after : Log} (treated : Treated row h) (grown : h ⊆ after) : Treated row after where
  ended := by
    obtain ⟨entry,inside,ends⟩ := List.any_eq_true.mp treated.ended
    exact List.any_eq_true.mpr ⟨entry,grown inside,ends⟩
  closed r own := by
    obtain ⟨entry,inside,closes⟩ := List.any_eq_true.mp (treated.closed r own)
    exact List.any_eq_true.mpr ⟨entry,grown inside,closes⟩
  checked signature own := by
    obtain ⟨status,inside⟩ := treated.checked signature own
    exact ⟨status,grown inside⟩

/-- The trade is on the list that the call has read. -/
structure OnList (row : TradeRow) (h : Log) : Prop where
  there : h.any (lists row.id)
  reservation : ∀ r, truthy row.reservationId = some r → h.any (listsReservation r)

theorem OnList.mono {row : TradeRow} {after : Log} (listed : OnList row h) (grown : h ⊆ after) : OnList row after where
  there := by
    obtain ⟨entry,inside,lists⟩ := List.any_eq_true.mp listed.there
    exact List.any_eq_true.mpr ⟨entry,grown inside,lists⟩
  reservation r own := by
    obtain ⟨entry,inside,lists⟩ := List.any_eq_true.mp (listed.reservation r own)
    exact List.any_eq_true.mpr ⟨entry,grown inside,lists⟩

theorem Plain.inert {op : Op} (plain : Plain h) (inert : op.inert) (answer : Except Failure op.Ans) :
    Plain (⟨op,answer⟩ :: h) where
  unowned r := by simp [owns_inert inert,plain.unowned]
  absent id := by simp [inserts_inert inert,plain.absent]
  unhanded := by simp [broadcasts_inert inert,plain.unhanded]

theorem Plain.call {op : Op} (plain : Plain h) (inert : op.inert) (allowed : allow h op) :
    (call op : Gateway op.Ans).wp allow (fun value after => after = ⟨op,.ok value⟩ :: h) (fun _ => Plain) h := by
  rw [wp_call]
  exact ⟨allowed,fun _ => rfl,fun error => plain.inert inert (.error error)⟩

theorem Plain.then {α β : Type} {p : Gateway α} {f : α → Gateway β} {P : α → Log → Prop} {Q : β → Log → Prop}
    (first : p.wp allow P (fun _ => Plain) h)
    (rest : ∀ value h, P value h → (f value).wp allow Q (fun _ => Plain) h) :
    (p >>= f).wp allow Q (fun _ => Plain) h := by
  rw [wp_bind]
  exact wp_mono p first rest fun _ _ => id

/-- The call has treated the trade since `h`, but for the look at its signature. -/
structure Shut (row : TradeRow) (h after : Log) : Prop where
  plain : Plain after
  grown : h ⊆ after
  ended : after.any (ends row.id)
  closed : ∀ r, truthy row.reservationId = some r → after.any (closes r)

private theorem drop_wp {row : TradeRow} {state : TradeState} (terminal : state.terminal) (error : String)
    (listed : OnList row h) (plain : Plain h) :
    (do
      release (truthy row.reservationId)
      let now ← call Op.now
      call (Op.fail row.id state error now)
      return false : Gateway Bool).wp allow (fun _ => Shut row h) (fun _ => Plain) h := by
  have close : (release (truthy row.reservationId)).wp allow
      (fun _ after => Plain after ∧ h ⊆ after ∧ ∀ r, truthy row.reservationId = some r → after.any (closes r))
      (fun _ => Plain) h := by
    cases own : truthy row.reservationId with
    | none => exact ⟨plain,List.Subset.refl h,by simp⟩
    | some r =>
      have unhanded : h.any broadcasts → excused h ∨ h.any breaks := by simp [plain.unhanded]
      refine wp_mono _ (plain.call rfl ⟨.inr (listed.reservation r own),unhanded⟩) ?_ fun _ _ => id
      intro _ after same
      subst same
      refine ⟨plain.inert rfl _,List.subset_cons_self _ _,?_⟩
      intro r' same
      cases same
      simp [closes]
  refine Plain.then close fun _ after shut => ?_
  obtain ⟨plain,grown,closed⟩ := shut
  refine Plain.then (plain.call rfl trivial) fun now later same => ?_
  subst same
  have stamped := plain.inert (rfl : Op.now.inert = true) (.ok now)
  have there := (listed.mono grown).there
  refine Plain.then (stamped.call rfl ⟨terminal,.inr (by simp [there])⟩) fun _ later same => ?_
  subst same
  refine ⟨stamped.inert rfl _,?_,?_,?_⟩
  · intro entry inside
    simp [grown inside]
  · simp [ends,terminal]
  · intro r own
    simp [closed r own]

private theorem keep_wp {row : TradeRow} (listed : OnList row h) (plain : Plain h) :
    (do
      consume (truthy row.reservationId)
      let now ← call Op.now
      call (Op.setState row.id .confirmed now)
      return true : Gateway Bool).wp allow (fun _ => Shut row h) (fun _ => Plain) h := by
  have close : (consume (truthy row.reservationId)).wp allow
      (fun _ after => Plain after ∧ h ⊆ after ∧ ∀ r, truthy row.reservationId = some r → after.any (closes r))
      (fun _ => Plain) h := by
    cases own : truthy row.reservationId with
    | none => exact ⟨plain,List.Subset.refl h,by simp⟩
    | some r =>
      refine wp_mono _ (plain.call rfl (.inr (listed.reservation r own))) ?_ fun _ _ => id
      intro _ after same
      subst same
      refine ⟨plain.inert rfl _,List.subset_cons_self _ _,?_⟩
      intro r' same
      cases same
      simp [closes]
  refine Plain.then close fun _ after shut => ?_
  obtain ⟨plain,grown,closed⟩ := shut
  refine Plain.then (plain.call rfl trivial) fun now later same => ?_
  subst same
  have stamped := plain.inert (rfl : Op.now.inert = true) (.ok now)
  have there := (listed.mono grown).there
  refine Plain.then (stamped.call rfl (.inr ⟨rfl,.inr (by simp [there])⟩)) fun _ later same => ?_
  subst same
  refine ⟨stamped.inert rfl _,?_,?_,?_⟩
  · intro entry inside
    simp [grown inside]
  · simp [ends,TradeState.terminal]
  · intro r own
    simp [closed r own]

theorem recoverTrade_wp (row : TradeRow) (listed : OnList row h) (plain : Plain h) :
    (recoverTrade row).wp allow (fun _ after => Plain after ∧ h ⊆ after ∧ Treated row after) (fun _ => Plain) h := by
  unfold recoverTrade
  cases signed : truthy row.signature with
  | none =>
    refine wp_mono _ (drop_wp rfl "RECONCILE_NO_SIGNATURE" listed plain) ?_ fun _ _ => id
    intro _ after shut
    exact ⟨shut.plain,shut.grown,shut.ended,shut.closed,by simp [signed]⟩
  | some signature =>
    rw [wp_bind,wp_call]
    have asked : ∀ answer, Plain (⟨.confirm signature row.lastValidBlockHeight,answer⟩ :: h) :=
      fun answer => ⟨plain.unowned,plain.absent,plain.unhanded⟩
    refine ⟨trivial,fun status => ?_,fun error => asked _⟩
    have treated : ∀ after, Shut row (⟨.confirm signature row.lastValidBlockHeight,.ok status⟩ :: h) after →
        Plain after ∧ h ⊆ after ∧ Treated row after := by
      intro after shut
      refine ⟨shut.plain,List.subset_of_cons_subset shut.grown,shut.ended,shut.closed,?_⟩
      intro signature' same
      rw [signed,Option.some.injEq] at same
      subst same
      exact ⟨status,shut.grown List.mem_cons_self⟩
    have listed := listed.mono (List.subset_cons_self (⟨.confirm signature row.lastValidBlockHeight,.ok status⟩ : Record) h)
    rw [wp_ite]
    refine ⟨fun _ => ?_,fun _ => ?_⟩
    · exact wp_mono _ (keep_wp listed (asked _)) (fun _ => treated) fun _ _ => id
    · refine wp_mono _ (drop_wp ?_ _ listed (asked _)) (fun _ => treated) fun _ _ => id
      split <;> rfl

theorem recoverTrades_wp (trades : List TradeRow) (summary : ReconcileSummary) (listed : ∀ row ∈ trades, OnList row h)
    (plain : Plain h) :
    (recoverTrades trades summary).wp allow
      (fun _ after => Plain after ∧ h ⊆ after ∧ ∀ row ∈ trades, Treated row after) (fun _ => Plain) h := by
  induction trades generalizing summary h with
  | nil => exact ⟨plain,List.Subset.refl h,by simp⟩
  | cons row trades ih =>
    unfold recoverTrades
    refine Plain.then (recoverTrade_wp row (listed row List.mem_cons_self) plain) fun confirmed after done => ?_
    obtain ⟨plain,grown,treated⟩ := done
    have rest : ∀ row ∈ trades, OnList row after :=
      fun row inside => (listed row (List.mem_cons_of_mem _ inside)).mono grown
    refine wp_mono _ (ih _ rest plain) ?_ fun _ _ => id
    intro _ last done
    refine ⟨done.1,List.Subset.trans grown done.2.1,?_⟩
    intro row' inside
    obtain rfl | inside := List.mem_cons.mp inside
    · exact treated.mono done.2.1
    · exact done.2.2 row' inside

theorem recover_wp : recover.wp allow
    (fun _ after => Plain after ∧ ∃ rows, ⟨.pendingSent,.ok rows⟩ ∈ after ∧ ∀ row ∈ rows, Treated row after)
    (fun _ => Plain) [] := by
  unfold recover
  rw [wp_bind,wp_call]
  have plain : ∀ answer, Plain [⟨.pendingSent,answer⟩] := fun answer => ⟨fun _ => rfl,fun _ => rfl,rfl⟩
  refine ⟨rfl,fun rows => ?_,fun error => plain _⟩
  have listed : ∀ row ∈ rows, OnList row [⟨.pendingSent,.ok rows⟩] := by
    intro row inside
    refine ⟨?_,?_⟩
    · simp only [List.any_cons,List.any_nil,Bool.or_false,lists,listings,List.any_eq_true,decide_eq_true_eq]
      exact ⟨row,inside,rfl⟩
    · intro r own
      have named := (Option.filter_eq_some_iff.mp own).1
      simp only [List.any_cons,List.any_nil,Bool.or_false,listsReservation,listings,List.any_eq_true,decide_eq_true_eq]
      exact ⟨row,inside,named⟩
  refine wp_mono _ (recoverTrades_wp rows _ listed (plain _)) ?_ fun _ _ => id
  intro _ after done
  exact ⟨done.1,rows,done.2.1 (by simp),done.2.2⟩

end Recover

theorem program_wp (d : Deployment) (call : Call) :
    ((kernel d).program call).wp allow (fun _ => Settles) (fun _ => Settles) [] := by
  cases call with
  | live intent o =>
    simp only [kernel,Call.program,wp_bind]
    exact live_wp
  | recover =>
    simp only [kernel,Call.program,wp_bind]
    exact wp_mono _ recover_wp (fun _ _ done => done.1.settles) fun _ _ plain => plain.settles

end RatifyOs.Kernel
