import RatifyOs.Kernel.Lifecycle

/-! `#live` and `recover` keep the books at every await, whatever happens while they wait. -/
namespace RatifyOs.Kernel
open Async Data
open Async.Program hiding pure throw

section Turns
variable (V : String → ConfirmStatus)

/-- The environment draws ids that are not empty, and has one answer about each signature. -/
structure Honest (choice : Choice) : Prop where
  named : choice.id ≠ ""
  judged : ∀ signature height status, choice.reply (.confirm signature height) = .ok status → status = V signature
  signed : ∀ mode tx handle signature, choice.reply (.broadcast mode tx handle) = .ok signature → signature ≠ ""

/-- A call that waits to settle its trade is not failed once the trade has ended. -/
def fits (h : Log) (op : Op) (s : KernelStore) (choice : Choice) : Prop :=
  Honest V choice ∧ (op.decides → (∃ error, choice.reply op = .error error) →
    ∀ id, lastWrite id h = some .sent → ∃ m, (books s).trade id = some m ∧ m.state = .sent)

abbrev Moment := Log × KernelStore

structure Over (origin now : Moment) : Prop where
  sane : Sane (books now.2)
  did : Did V (origin.1,books origin.2) (now.1,books now.2)

def contract : Contract Op Op.Ans Failure KernelStore Choice where
  handle
  awaits := Op.awaits
  fits := fits V
  rests h s := Sane (books s) ∧ Knows V h (books s)
  good origin now := Over V origin now ∧ Knows V now.1 (books now.2)

theorem contract_handle : (contract V).handle = handle := rfl

/-- How far a live call has come. -/
inductive Phase where
  | bare
  | rowed
  | signed (signature : String)
  | sent (signature : String)

def Phase.inserted : Phase → Bool
  | .bare => false
  | _ => true

/-- What the row of the call looks like. -/
def Phase.shows : Phase → Mark → Prop
  | .bare, _ => False
  | .rowed, m => m.state = .reserved
  | .signed signature, m => m.state = .reserved ∧ m.signature = some signature ∧ signature ≠ ""
  | .sent signature, m => m.signature = some signature ∧ signature ≠ "" ∧ (m.state = .sent ∨ m.state = (V signature).ended)

def Phase.wrote (id : String) (h : Log) : Phase → Prop
  | .bare => True
  | .rowed => lastWrite id h = some .reserved
  | .signed signature => lastWrite id h = some .reserved ∧ signedAs id h = some signature
  | .sent signature => lastWrite id h = some .sent ∧ signedAs id h = some signature

structure Under (id : String) (res : Option String) (p : Phase) (origin now : Moment) : Prop where
  closed : Over V origin now
  made : Made id res p.inserted now.1
  unlisted : listedRows now.1 = []
  wrote : p.wrote id now.1
  loose : p = .bare → ∀ r, res = some r → Loose (books now.2) r
  row : p ≠ .bare → ∃ m, (books now.2).trade id = some m ∧ m.reservation = res ∧ p.shows V m

/-- The call may be given up here. -/
structure Cause (id : String) (res : Option String) (inserted : Bool) (origin now : Moment) : Prop where
  closed : Over V origin now
  made : Made id res inserted now.1
  loose : inserted = false → ∀ r, res = some r → Loose (books now.2) r
  row : inserted = true → ∃ m, (books now.2).trade id = some m ∧ m.reservation = res ∧
    (m.state = .reserved ∨ m.state = .sent ∧ Dropped origin.1 now.1 ∧ lastWrite id origin.1 = some .sent)

/-- Since `h` the call has made nothing, and the books have become `b`. -/
structure Stands (start : Moment) (h : Log) (b : Books) (origin now : Moment) : Prop where
  same : origin = start
  quiet : Quiet h now.1
  shown : books now.2 = b

/-- An effect that changes no row and no reservation. -/
def Op.silent : Op → Bool
  | now | newTradeId | policy | claimIdempotency _ _ _ | getTradeByIdempotency _ | inspect _ _ | readPair _ _ _
  | readPosition _ | appendJournal _ | simulate _ | sign _ | broadcast _ _ _ | confirm _ _ => true
  | _ => false

end Turns

section Silent
variable {op : Op} {answer : Except Failure op.Ans}

theorem books_silent (silent : op.silent) (choice : Choice) (s : KernelStore) : books (handle choice op s).2 = books s := by
  cases op with
  | claimIdempotency key tradeId now =>
    simp only [handle,KernelStore.claimIdempotency]
    split <;> rfl
  | _ => first | rfl | cases silent

theorem writeOf_of_silent (silent : op.silent) (id : String) : writeOf id ⟨op,answer⟩ = none := by
  cases op <;> first | rfl | cases silent

theorem signatureOf_of_silent (silent : op.silent) (id : String) : signatureOf id ⟨op,answer⟩ = none := by
  cases op <;> first | rfl | cases silent

theorem quiet_silent (silent : op.silent) (h : Log) : Quiet h (⟨op,answer⟩ :: h) := by
  cases op <;> first | exact .entry (fun _ => rfl) (fun _ => rfl) rfl | cases silent

theorem handle_awaits (waits : op.awaits) (choice : Choice) (s : KernelStore) :
    handle choice op s = (choice.reply op,s) := by
  cases op <;> first | rfl | cases waits

theorem silent_of_awaits (waits : op.awaits) : op.silent := by cases op <;> first | rfl | cases waits

end Silent

section Live
variable {V : String → ConfirmStatus} {id : String} {res : Option String} {p : Phase} {h : Log} {s : KernelStore}
  {origin : Moment} {op : Op}

theorem Made.quiet {h' : Log} {inserted : Bool} (made : Made id res inserted h) (quiet : Quiet h h') :
    Made id res inserted h' where
  owned r := by rw [quiet.owned,made.owned]
  row i := by rw [quiet.inserted,made.row]

theorem Phase.wrote_silent (p : Phase) (silent : op.silent) (answer : Except Failure op.Ans) (wrote : p.wrote id h) :
    p.wrote id (⟨op,answer⟩ :: h) := by
  cases p with
  | bare => trivial
  | _ => simpa [Phase.wrote,lastWrite,signedAs,writeOf_of_silent silent,signatureOf_of_silent silent] using wrote

theorem Over.silent (closed : Over V origin (h,s)) (silent : op.silent) (choice : Choice) (answer : Except Failure op.Ans) :
    Over V origin (⟨op,answer⟩ :: h,(handle choice op s).2) := by
  have same := books_silent silent choice s
  constructor
  · rw [same]
    exact closed.sane
  · rw [same]
    exact closed.did.onward (quiet_silent silent h).toIdle (.refl _ _ _)

theorem Under.silent (under : Under V id res p origin (h,s)) (silent : op.silent) (choice : Choice)
    (answer : Except Failure op.Ans) : Under V id res p origin (⟨op,answer⟩ :: h,(handle choice op s).2) := by
  have same := books_silent silent choice s
  have quiet : Quiet h (⟨op,answer⟩ :: h) := quiet_silent silent h
  constructor
  · exact under.closed.silent silent choice answer
  · exact under.made.quiet quiet
  · exact quiet.listed.trans under.unlisted
  · exact p.wrote_silent silent answer under.wrote
  · simpa only [same] using under.loose
  · simpa only [same] using under.row

theorem Under.idle (under : Under V id res p origin (h,s)) {entry : Record} (quiet : Quiet h (entry :: h))
    (wrote : p.wrote id (entry :: h)) : Under V id res p origin (entry :: h,s) where
  closed := ⟨under.closed.sane,under.closed.did.onward quiet.toIdle (.refl _ _ _)⟩
  made := under.made.quiet quiet
  unlisted := quiet.listed.trans under.unlisted
  wrote := wrote
  loose := under.loose
  row := under.row

theorem Under.cause (under : Under V id res p origin (h,s)) (early : p = .bare ∨ p = .rowed) :
    Cause V id res p.inserted origin (h,s) where
  closed := under.closed
  made := under.made
  loose bare := under.loose (by rcases early with rfl | rfl <;> first | rfl | cases bare)
  row inserted := by
    rcases early with rfl | rfl
    · cases inserted
    · obtain ⟨m,found,held,shows⟩ := under.row (by simp)
      exact ⟨m,found,held,.inl shows⟩

theorem Under.knows (under : Under V id res p origin (h,s)) : Knows V h (books s) where
  own i mine := by
    obtain ⟨inserted,rfl⟩ := (under.made.row i).mp mine
    obtain ⟨m,found,held,shows⟩ := under.row (by rintro rfl; cases inserted)
    refine ⟨m,found,?_,?_,?_⟩
    · intro r
      rw [held]
      exact (under.made.owned r).symm
    · intro last
      have wrote := under.wrote
      cases p with
      | bare => cases inserted
      | rowed => exact shows
      | signed signature => exact shows.1
      | sent signature =>
        rw [wrote.1] at last
        cases last
    · intro last
      have wrote := under.wrote
      cases p with
      | bare => cases inserted
      | rowed =>
        rw [show lastWrite i h = some .reserved from wrote] at last
        cases last
      | signed signature =>
        rw [wrote.1] at last
        cases last
      | sent signature => exact ⟨shows.1.trans wrote.2.symm,signature,shows⟩
  made r mine := by
    have held := (under.made.owned r).mp mine
    by_cases bare : p = .bare
    · simp [(under.loose bare r held).there]
    · obtain ⟨m,found,same,_⟩ := under.row bare
      simp [(under.closed.sane.agree id m found).2 r (same.trans held)]
  loose r mine absent := by
    apply under.loose _ r ((under.made.owned r).mp mine)
    have nothing := absent id
    rw [Bool.eq_false_iff,ne_eq,under.made.row] at nothing
    cases p <;> first | rfl | exact absurd ⟨rfl,rfl⟩ nothing
  listed row inside := by
    rw [under.unlisted] at inside
    cases inside

theorem Under.resume (under : Under V id res p origin (h,s)) {later : KernelStore} (sane : Sane (books later))
    (knows : Knows V h (books later)) (waits : ∀ signature, p ≠ .signed signature) :
    Under V id res p (h,later) (h,later) where
  closed := ⟨sane,.refl _ _⟩
  made := under.made
  unlisted := under.unlisted
  wrote := under.wrote
  loose bare r held := knows.loose r ((under.made.owned r).mpr held) fun i => by
    rw [Bool.eq_false_iff,ne_eq,under.made.row,bare]
    rintro ⟨⟨⟩,_⟩
  row inserted := by
    have mine : h.any (inserts id) := (under.made.row id).mpr ⟨by cases p <;> first | rfl | exact absurd rfl inserted,rfl⟩
    obtain ⟨m,found,held,reserved,sent⟩ := knows.own id mine
    have wrote := under.wrote
    refine ⟨m,found,?_,?_⟩
    · apply Option.ext
      intro r
      exact (held r).trans (under.made.owned r)
    · cases p with
      | bare => exact absurd rfl inserted
      | rowed => exact reserved wrote
      | signed signature => exact absurd rfl (waits signature)
      | sent signature =>
        obtain ⟨signed,signature',same,settling⟩ := sent wrote.1
        rw [same,wrote.2] at signed
        cases signed
        exact ⟨same,settling⟩

structure Answered (V : String → ConfirmStatus) (op : Op) (answer : Except Failure op.Ans) (origin now : Moment) : Prop where
  history : now.1 = ⟨op,answer⟩ :: origin.1
  state : now.2 = origin.2
  fits : ∃ choice, fits V origin.1 op origin.2 choice ∧ answer = choice.reply op

theorem Under.await (under : Under V id res p origin (h,s)) (waits : op.awaits) (apart : ∀ signature, p ≠ .signed signature) :
    (call op : Gateway op.Ans).keeps (contract V)
      (fun value origin now => Under V id res p origin now ∧ Under V id res p origin origin ∧ Answered V op (.ok value) origin now)
      (fun error origin now => Under V id res p origin now ∧ Under V id res p origin origin ∧
        Answered V op (.error error) origin now) origin h s := by
  apply keeps_await (k := contract V) waits (show (contract V).good _ _ from ⟨under.closed,under.knows⟩)
  intro later rests choice fitting
  have resumed := under.resume rests.1 rests.2 apart
  have next := fun answer => resumed.silent (silent_of_awaits waits) choice answer
  rw [contract_handle]
  rw [show handle choice op later = (choice.reply op,later) from handle_awaits waits choice later] at next ⊢
  cases replied : choice.reply op with
  | ok value => exact ⟨next _,resumed,rfl,rfl,choice,fitting,replied.symm⟩
  | error error => exact ⟨next _,resumed,rfl,rfl,choice,fitting,replied.symm⟩

theorem Under.call (under : Under V id res p origin (h,s)) (silent : op.silent) (early : p = .bare ∨ p = .rowed) :
    (call op : Gateway op.Ans).keeps (contract V) (fun _ => Under V id res p)
      (fun _ => Cause V id res p.inserted) origin h s := by
  by_cases waits : op.awaits
  · apply keeps_mono _ (under.await waits (by rcases early with rfl | rfl <;> simp))
    · exact fun _ _ _ both => both.1
    · exact fun _ _ _ both => both.1.cause early
  · apply keeps_call (by simpa [contract] using waits)
    intro choice _
    have next := fun answer => under.silent silent choice answer
    rw [contract_handle]
    generalize handle choice op s = result at next ⊢
    obtain ⟨answer,after⟩ := result
    cases answer with
    | ok value => exact next _
    | error error => exact (next _).cause early

theorem Under.reject (under : Under V id res p origin (h,s)) (early : p = .bare ∨ p = .rowed) (c : Prop) [Decidable c]
    (error : Failure) :
    (reject c error : Gateway Unit).keeps (contract V) (fun _ => Under V id res p)
      (fun _ => Cause V id res p.inserted) origin h s := by
  rw [keeps_reject]
  exact ⟨fun _ => under.cause early,fun _ => under⟩

theorem Under.journal (under : Under V id res p origin (h,s)) (early : p = .bare ∨ p = .rowed) (type name : String)
    (details : List (String × Json)) :
    (journal type name details).keeps (contract V) (fun _ => Under V id res p)
      (fun _ => Cause V id res p.inserted) origin h s :=
  keeps_then (under.call rfl early) fun _ _ _ _ under => under.call rfl early

section Ending
variable {start : Moment} {b : Books} {α : Type} {E : Failure → Moment → Moment → Prop}

theorem Stands.begin (origin : Moment) (h : Log) (s : KernelStore) : Stands origin h (books s) origin (h,s) where
  same := rfl
  quiet := ⟨⟨List.suffix_refl h,fun _ => rfl,fun _ => rfl⟩,rfl⟩
  shown := rfl

theorem Stands.entry {h₀ : Log} (stands : Stands start h₀ b origin (h,s)) {entry : Record} (quiet : Quiet h (entry :: h))
    {s' : KernelStore} {b' : Books} (same : books s' = b') : Stands start h₀ b' origin (entry :: h,s') where
  same := stands.same
  quiet := stands.quiet.trans quiet
  shown := same

theorem Stands.sure {h₀ : Log} (stands : Stands start h₀ b origin (h,s)) (silent : op.silent) (runs : op.awaits = false)
    (sure : ∀ choice, ∃ value, (handle choice op s).1 = .ok value) :
    (call op : Gateway op.Ans).keeps (contract V) (fun _ => Stands start h₀ b) E origin h s := by
  apply keeps_call runs
  intro choice _
  obtain ⟨value,answered⟩ := sure choice
  have same := books_silent silent choice s
  rw [contract_handle,answered]
  exact stands.entry (quiet_silent silent h) (same.trans stands.shown)

theorem Stands.now {h₀ : Log} (stands : Stands start h₀ b origin (h,s)) :
    (Program.call Op.now : Gateway ℤ).keeps (contract V) (fun _ => Stands start h₀ b) E origin h s :=
  stands.sure rfl rfl fun _ => ⟨_,rfl⟩

theorem Stands.journal {h₀ : Log} (stands : Stands start h₀ b origin (h,s)) (type name : String)
    (details : List (String × Json)) :
    (journal type name details).keeps (contract V) (fun _ => Stands start h₀ b) E origin h s :=
  keeps_then stands.now fun _ _ _ _ stands => stands.sure rfl rfl fun _ => ⟨_,rfl⟩

theorem Stands.release {h₀ : Log} (stands : Stands start h₀ b origin (h,s)) (reservation : Option String) :
    (release reservation).keeps (contract V) (fun _ => Stands start h₀ (b.settle reservation released)) E origin h s := by
  cases reservation with
  | none => exact stands
  | some r =>
    apply keeps_call rfl
    intro choice _
    exact stands.entry (.entry (fun _ => rfl) (fun _ => rfl) rfl) (by rw [← stands.shown]; exact books_release s r)

theorem Stands.consume {h₀ : Log} (stands : Stands start h₀ b origin (h,s)) (reservation : Option String) :
    (consume reservation).keeps (contract V)
      (fun _ => Stands start h₀ (b.settle reservation fun _ => .consumed)) E origin h s := by
  cases reservation with
  | none => exact stands
  | some r =>
    apply keeps_call rfl
    intro choice _
    exact stands.entry (.entry (fun _ => rfl) (fun _ => rfl) rfl) (by rw [← stands.shown]; exact books_consume s r)

theorem Stands.fail {h₀ : Log} (stands : Stands start h₀ b origin (h,s)) (name : String) (state : TradeState)
    (error : String) (now : ℤ) :
    (Program.call (Op.fail name state error now) : Gateway Unit).keeps (contract V)
      (fun _ => Stands start h₀ (b.mark name fun m => { m with state })) E origin h s := by
  apply keeps_call rfl
  intro choice _
  exact stands.entry (.entry (fun _ => rfl) (fun _ => rfl) rfl)
    (by rw [← stands.shown]; exact books_fail s name state error now)

theorem Stands.setState {h₀ : Log} (stands : Stands start h₀ b origin (h,s)) (name : String) (state : TradeState)
    (now : ℤ) :
    (Program.call (Op.setState name state now) : Gateway Unit).keeps (contract V)
      (fun _ => Stands start h₀ (b.mark name fun m => { m with state })) E origin h s := by
  apply keeps_call rfl
  intro choice _
  exact stands.entry (.entry (fun _ => rfl) (fun _ => rfl) rfl)
    (by rw [← stands.shown]; exact books_setState s name state now)

theorem Over.close (closed : Over V origin (h,s)) {m : Mark} (found : (books s).trade id = some m) {state : TradeState}
    (terminal : state.terminal) (known : state ≠ .rejected) (ends : m.state.terminal → state = m.state)
    (move : ∀ h', Quiet h h' →
      (h'.any (inserts id) → m.state ≠ .reserved ∧ ¬(Dropped origin.1 h' ∧ lastWrite id origin.1 = some .sent)) →
      Moved V m { m with state }) {origin' now : Moment}
    (stands : Stands origin h ((books s).close id m.reservation state (spendOf state)) origin' now) : Over V origin' now := by
  obtain ⟨rfl,quiet,shown⟩ := stands
  constructor
  · rw [shown]
    exact closed.sane.close found terminal known
  · rw [shown]
    exact closed.did.onward quiet.toIdle (closed.sane.onward_close found ends (move now.1 quiet))

theorem Cause.close (cause : Cause V id res true origin (h,s)) {origin' now : Moment}
    (stands : Stands origin h (((books s).settle res released).mark id fun m => { m with state := .errored }) origin' now) :
    Over V origin' now := by
  obtain ⟨m,found,rfl,own⟩ := cause.row rfl
  have spent : ∀ r, m.reservation = some r → ∃ old, (books s).spend r = some old ∧ released old = spendOf .errored := by
    intro r held
    refine ⟨_,(cause.closed.sane.agree id m found).2 r held,?_⟩
    rcases own with reserved | ⟨sent,_⟩
    · simp [reserved,spendOf,released]
    · simp [sent,spendOf,released]
  rw [(books s).settle_mark id m.reservation .errored spent] at stands
  refine cause.closed.close found rfl (by decide) ?_ ?_ stands
  · rcases own with reserved | ⟨sent,_⟩ <;> simp [*,TradeState.terminal]
  · intro h' quiet free
    obtain ⟨unreserved,kept⟩ := free (by rw [quiet.inserted]; exact (cause.made.row id).mpr ⟨rfl,rfl⟩)
    rcases own with reserved | ⟨_,⟨op,error,decides,first⟩,last⟩
    · exact absurd reserved unreserved
    · exact absurd ⟨⟨op,error,decides,first.trans quiet.longer⟩,last⟩ kept

theorem Cause.release (cause : Cause V id res false origin (h,s)) {origin' now : Moment}
    (stands : Stands origin h ((books s).settle res released) origin' now) : Over V origin' now := by
  obtain ⟨rfl,quiet,shown⟩ := stands
  cases res with
  | none =>
    rw [show (books s).settle none released = books s from rfl] at shown
    constructor
    · rw [shown]
      exact cause.closed.sane
    · rw [shown]
      exact cause.closed.did.onward quiet.toIdle (.refl _ _ _)
  | some r =>
    rw [show (books s).settle (some r) released = (books s).respend r released from rfl] at shown
    have mine : now.1.any (owns r) := by
      rw [quiet.owned]
      exact (cause.made.owned r).mpr rfl
    constructor
    · rw [shown]
      exact cause.closed.sane.release (cause.loose rfl r rfl)
    · rw [shown]
      exact cause.closed.did.onward quiet.toIdle (onward_release mine)

theorem Cause.abandon {inserted : Bool} (cause : Cause V id res inserted origin (h,s)) (err : Failure) :
    (abandon id res inserted err).keeps (contract V) (fun _ => Over V) (fun _ => Over V) origin h s := by
  unfold Kernel.abandon
  apply keeps_then ((Stands.begin origin h s).release res)
  intro _ _ _ _ stands
  cases inserted with
  | false =>
    apply keeps_then (stands.journal _ _ _)
    intro _ _ _ _ stands
    exact cause.release stands
  | true =>
    apply keeps_then stands.now
    intro now _ _ _ stands
    apply keeps_then (stands.fail id .errored _ now)
    intro _ _ _ _ stands
    apply keeps_then (stands.journal _ _ _)
    intro _ _ _ _ stands
    exact cause.close stands

theorem Over.conclude (closed : Over V origin (h,s)) {m : Mark} {signature : String} (found : (books s).trade id = some m)
    (signed : m.signature = some signature) (state : m.state = .sent ∨ m.state = (V signature).ended)
    {change : SpendState → SpendState}
    (closing : ∀ old, old = .reserved ∨ old = spendOf (V signature).ended → change old = spendOf (V signature).ended)
    {origin' now : Moment}
    (stands : Stands origin h (((books s).settle m.reservation change).mark id fun m => { m with state := (V signature).ended })
      origin' now) : Over V origin' now := by
  have spent : ∀ r, m.reservation = some r →
      ∃ old, (books s).spend r = some old ∧ change old = spendOf (V signature).ended := by
    intro r held
    refine ⟨_,(closed.sane.agree id m found).2 r held,closing _ ?_⟩
    rcases state with sent | ended
    · exact .inl (by rw [sent]; rfl)
    · exact .inr (by rw [ended])
  rw [(books s).settle_mark id m.reservation _ spent] at stands
  refine closed.close found (ended_terminal _) (ended_ne _).2.2 ?_ ?_ stands
  · intro terminal
    rcases state with sent | ended
    · rw [sent] at terminal
      cases terminal
    · exact ended.symm
  · intro _ _ _
    rcases state with sent | ended
    · exact ⟨rfl,.inr ⟨sent,signature,signed,rfl⟩⟩
    · exact ⟨rfl,.inl ended.symm⟩

theorem gaveUp_ended {status : ConfirmStatus} (other : status ≠ .confirmed) :
    (if status = .expired then TradeState.expired else .errored) = status.ended := by
  cases status with
  | confirmed => exact absurd rfl other
  | _ => rfl

theorem released_closing {status : ConfirmStatus} (other : status ≠ .confirmed) (old : SpendState)
    (known : old = .reserved ∨ old = spendOf status.ended) : released old = spendOf status.ended := by
  cases status with
  | confirmed => exact absurd rfl other
  | _ => rcases known with rfl | rfl <;> rfl

end Ending

theorem Under.write (under : Under V id res p origin (h,s)) {p' : Phase} (rowed : p ≠ .bare) (rowed' : p' ≠ .bare)
    {entry : Record} (quiet : Quiet h (entry :: h)) {s' : KernelStore} {change : Mark → Mark}
    (same : books s' = (books s).mark id change) (reserved : ∀ m, p.shows V m → m.state = .reserved)
    (held : ∀ m, (change m).reservation = m.reservation) (shows : ∀ m, p.shows V m → p'.shows V (change m))
    (open_ : ∀ m, p.shows V m → (change m).state = .reserved ∨
      (change m).state = .sent ∧ ∃ signature, (change m).signature = some signature ∧ signature ≠ "")
    (wrote : p'.wrote id (entry :: h)) : Under V id res p' origin (entry :: h,s') := by
  obtain ⟨m,found,mine,shown⟩ := under.row rowed
  have inserted : ∀ {q : Phase}, q ≠ .bare → q.inserted = true := by
    intro q other
    cases q <;> first | rfl | exact absurd rfl other
  have own : h.any (inserts id) := (under.made.row id).mpr ⟨inserted rowed,rfl⟩
  have made := under.made.quiet quiet
  rw [inserted rowed,← inserted rowed'] at made
  refine ⟨⟨?_,?_⟩,made,quiet.listed.trans under.unlisted,wrote,fun bare => absurd bare rowed',?_⟩
  · rw [same]
    apply under.closed.sane.mark found (held m)
    · rw [reserved m shown]
      rcases open_ m shown with still | ⟨sent,_⟩
      · rw [still]
      · rw [sent]
        rfl
    · rcases open_ m shown with still | ⟨sent,_⟩ <;> simp [*]
    · intro sent
      rcases open_ m shown with still | ⟨_,signed⟩
      · rw [still] at sent
        cases sent
      · exact signed
  · rw [same]
    exact under.closed.did.onward quiet.toIdle
      (onward_mark found (by rw [quiet.inserted]; exact own) (reserved m shown) (held m))
  · intro _
    refine ⟨change m,?_,(held m).trans mine,shows m shown⟩
    rw [same]
    simp [Books.mark,found]

theorem Under.sure (under : Under V id res p origin (h,s)) (silent : op.silent) (runs : op.awaits = false)
    (sure : ∀ choice, ∃ value, (handle choice op s).1 = .ok value) {E : Failure → Moment → Moment → Prop} :
    (Program.call op : Gateway op.Ans).keeps (contract V) (fun _ => Under V id res p) E origin h s := by
  apply keeps_call runs
  intro choice _
  obtain ⟨value,answered⟩ := sure choice
  have next := under.silent silent choice (.ok value)
  rw [contract_handle,answered]
  exact next

theorem Under.dropped {signature : String} {now : Moment} {error : Failure} (under : Under V id res (.sent signature) origin now)
    (before : Under V id res (.sent signature) origin origin) (answered : Answered V op (.error error) origin now)
    (decides : op.decides) : Cause V id res true origin now where
  closed := under.closed
  made := under.made
  loose := by rintro ⟨⟩
  row _ := by
    obtain ⟨m,found,held,_⟩ := under.row (by simp)
    obtain ⟨choice,fitting,replied⟩ := answered.fits
    have last := before.wrote.1
    obtain ⟨m',found',sent⟩ := fitting.2 decides ⟨error,replied.symm⟩ id last
    rw [answered.state,found'] at found
    cases found
    refine ⟨m,by rw [answered.state,found'],held,.inr ⟨sent,⟨op,error,decides,?_⟩,last⟩⟩
    simp only [answered.history,List.suffix_rfl]

section Sent
variable {d : Deployment} {intent : TradeIntent} {o : ExecuteOptions} {signature : String}

theorem giveUp_keeps (under : Under V id res (.sent signature) origin (h,s)) (other : V signature ≠ .confirmed) :
    (giveUp id res (V signature)).keeps (contract V) (fun _ => Over V) (fun _ => Cause V id res true) origin h s := by
  obtain ⟨m,found,rfl,signed,_,state⟩ := under.row (by simp)
  unfold giveUp
  apply keeps_then ((Stands.begin origin h s).release _)
  intro _ _ _ _ stands
  apply keeps_then stands.now
  intro now _ _ _ stands
  apply keeps_then (stands.fail id _ _ now)
  intro _ _ _ _ stands
  apply keeps_then (stands.journal _ _ _)
  intro _ _ _ _ stands
  apply under.closed.conclude found signed state (released_closing other)
  rw [gaveUp_ended other] at stands
  exact stands

theorem settle_keeps (under : Under V id res (.sent signature) origin (h,s)) (outputDelta : ℤ) (prePosition : Option ℤ)
    {E : Failure → Moment → Moment → Prop} :
    (settle d intent outputDelta prePosition).keeps (contract V) (fun _ => Under V id res (.sent signature)) E origin h s := by
  unfold settle
  split
  · rw [keeps_tryCatch,keeps_bind]
    apply keeps_mono _ (under.await rfl (by simp))
    · exact fun _ _ _ both => both.1
    · exact fun _ _ _ both => both.1
  · exact under

theorem conclude_keeps (pre : Pair) (prePosition : Option ℤ) (under : Under V id res (.sent signature) origin (h,s))
    (confirmed : V signature = .confirmed) :
    (conclude d intent id res signature pre prePosition).keeps (contract V) (fun _ => Over V)
      (fun _ => Cause V id res true) origin h s := by
  unfold conclude
  have read : (readPair d intent).keeps (contract V) (fun _ => Under V id res (.sent signature))
      (fun _ => Cause V id res true) origin h s := by
    apply keeps_mono _ (under.await rfl (by simp))
    · exact fun _ _ _ both => both.1
    · exact fun _ _ _ both => both.1.dropped both.2.1 both.2.2 rfl
  apply keeps_then read
  intro post origin h s under
  apply keeps_then (settle_keeps under _ _)
  intro settled origin h s under
  obtain ⟨m,found,rfl,signed,_,state⟩ := under.row (by simp)
  apply keeps_then ((Stands.begin origin h s).consume _)
  intro _ _ _ _ stands
  apply keeps_then stands.now
  intro now _ _ _ stands
  apply keeps_then (stands.setState id .confirmed now)
  intro _ _ _ _ stands
  apply keeps_then (stands.journal _ _ _)
  intro _ _ _ _ stands
  have closing : ∀ old, old = .reserved ∨ old = spendOf (V signature).ended →
      (fun _ => SpendState.consumed) old = spendOf (V signature).ended := by
    intro _ _
    rw [confirmed]
    rfl
  apply under.closed.conclude found signed state closing
  rw [confirmed]
  exact stands

theorem land_keeps (now : ℤ) (bucket : Option QuoteBucket) (pre : Pair) (prePosition : Option ℤ)
    (under : Under V id res .rowed origin (h,s)) :
    (land d intent o id now bucket res pre prePosition).keeps (contract V) (fun _ => Over V)
      (fun _ => Cause V id res true) origin h s := by
  have early : Phase.rowed = .bare ∨ Phase.rowed = .rowed := .inr rfl
  unfold land
  apply keeps_then (under.call rfl early)
  intro _ origin h s under
  have reserved : ∀ event, (onlyIf (res.isSome = true) (Program.call (Op.appendJournal event)) : Gateway Unit).keeps
      (contract V) (fun _ => Under V id res .rowed) (fun _ => Cause V id res true) origin h s := by
    intro event
    exact keeps_onlyIf _ _ (under.call rfl early) under
  apply keeps_then (reserved _)
  intro _ origin h s under
  apply keeps_then (under.call rfl early)
  intro sim origin h s under
  apply keeps_then (under.journal early _ _ _)
  intro _ origin h s under
  apply keeps_then (under.reject early _ _)
  intro _ origin h s under
  apply keeps_then (under.call rfl early)
  intro signed origin h s under
  apply keeps_then (under.call rfl early)
  intro now origin h s under
  have persisted : (Program.call (Op.persistSigned id signed.wireBase64 signed.signature now) : Gateway Unit).keeps
      (contract V) (fun _ => Under V id res .rowed) (fun _ => Cause V id res true) origin h s := by
    apply keeps_call rfl
    intro choice _
    apply under.write (by simp) (by simp) (.entry (fun _ => rfl) (fun _ => rfl) rfl)
      (books_persistSigned s id signed.wireBase64 signed.signature now)
    · exact fun _ shown => shown
    · exact fun _ => rfl
    · exact fun _ shown => shown
    · exact fun _ => .inl
    · exact under.wrote
  apply keeps_then persisted
  intro _ origin h s under
  apply keeps_then (under.journal early _ _ _)
  intro _ origin h s under
  apply keeps_then (under.reject early _ _)
  intro _ origin h s under
  have broadcast : (tryCatch (Program.call (Op.broadcast intent.landMode signed intent.landHandle) : Gateway String) fun e =>
      throw (Failure.guard .broadcastFailed e.message [])).keeps (contract V)
      (fun signature origin now => Under V id res .rowed origin now ∧ signature ≠ "") (fun _ => Cause V id res true)
      origin h s := by
    rw [keeps_tryCatch]
    apply keeps_mono _ (under.await rfl (by simp))
    · rintro signature _ _ ⟨under,_,_,_,choice,fitting,replied⟩
      exact ⟨under,fitting.1.signed _ _ _ signature replied.symm⟩
    · exact fun _ _ _ both => both.1.cause early
  apply keeps_then broadcast
  rintro signature origin h s ⟨under,named⟩
  apply keeps_then (under.call rfl early)
  intro t₁ origin h s under
  have signed : (Program.call (Op.setSignature id signature t₁) : Gateway Unit).keeps
      (contract V) (fun _ => Under V id res (.signed signature)) (fun _ => Cause V id res true) origin h s := by
    apply keeps_call rfl
    intro choice _
    apply under.write (by simp) (by simp) (.entry (fun _ => rfl) (fun _ => rfl) rfl)
      (books_setSignature s id signature t₁)
    · exact fun _ shown => shown
    · exact fun _ => rfl
    · exact fun _ reserved => ⟨reserved,rfl,named⟩
    · exact fun _ => .inl
    · exact ⟨under.wrote,by simp [signedAs,signatureOf]⟩
  apply keeps_then signed
  intro _ origin h s under
  apply keeps_then (under.sure rfl rfl fun _ => ⟨_,rfl⟩)
  intro t₂ origin h s under
  have sent : (Program.call (Op.setState id .sent t₂) : Gateway Unit).keeps
      (contract V) (fun _ => Under V id res (.sent signature)) (fun _ => Cause V id res true) origin h s := by
    apply keeps_call rfl
    intro choice _
    apply under.write (by simp) (by simp) (.entry (fun _ => rfl) (fun _ => rfl) rfl) (books_setState s id .sent t₂)
    · exact fun _ shows => shows.1
    · exact fun _ => rfl
    · exact fun _ shows => ⟨shows.2.1,shows.2.2,.inl rfl⟩
    · exact fun _ shows => .inr ⟨rfl,signature,shows.2⟩
    · exact ⟨by simp [lastWrite,writeOf],under.wrote.2⟩
  apply keeps_then sent
  intro _ origin h s under
  have entered : ∀ details, (Kernel.journal "trade.sent" id details).keeps (contract V)
      (fun _ => Under V id res (.sent signature)) (fun _ => Cause V id res true) origin h s := by
    intro details
    apply keeps_then (under.sure rfl rfl fun _ => ⟨_,rfl⟩)
    intro t₃ origin h s under
    exact under.sure rfl rfl fun _ => ⟨_,rfl⟩
  apply keeps_then (entered _)
  intro _ origin h s under
  rw [keeps_bind]
  apply keeps_mono _ (under.await rfl (by simp))
  · rintro status _ _ ⟨under,_,_,_,choice,fitting,replied⟩
    obtain rfl := fitting.1.judged _ _ status replied.symm
    split
    · rename_i other
      exact giveUp_keeps under other
    · rename_i confirmed
      exact conclude_keeps pre prePosition under (by simpa using confirmed)
  · exact fun _ _ _ both => both.1.dropped both.2.1 both.2.2 rfl

theorem register_keeps (now : ℤ) (bucket : Option QuoteBucket) (under : Under V id res .bare origin (h,s)) :
    (register d intent o id now bucket res).keeps (contract V) (fun _ => Under V id res .rowed)
      (fun _ => Cause V id res false) origin h s := by
  have early : Phase.bare = .bare ∨ Phase.bare = .rowed := .inl rfl
  unfold register
  apply keeps_then (under.call rfl early : (readPair d intent).keeps _ _ _ _ _ _)
  intro pre origin h s under
  have position : (readPosition d intent).keeps (contract V) (fun _ => Under V id res .bare)
      (fun _ => Cause V id res false) origin h s := by
    unfold readPosition
    split
    · exact keeps_then (under.call rfl early) fun _ _ _ _ under => under
    · exact under
  apply keeps_then position
  intro prePosition origin h s under
  apply keeps_then (under.reject early _ _)
  intro _ origin h s under
  rw [keeps_bind]
  apply keeps_call rfl
  intro choice _
  rw [contract_handle]
  rcases books_insert s choice _ res with ⟨answered,free,shown⟩ | ⟨error,answered,shown⟩
  · rw [answered]
    refine ⟨⟨?_,?_⟩,⟨?_,?_⟩,under.unlisted,?_,by simp,?_⟩
    · rw [shown]
      exact under.closed.sane.enter free (under.loose rfl)
    · rw [shown]
      apply under.closed.did.enter (List.suffix_cons _ _) _ (fun _ => rfl) (fun r held => (under.made.owned r).mpr held) free
      intro i
      simp only [List.any_cons,Bool.or_eq_true,inserts,decide_eq_true_eq]
      rw [eq_comm]
    · exact under.made.owned
    · intro i
      have absent : h.any (inserts i) = false := by
        rw [Bool.eq_false_iff,ne_eq,under.made.row]
        rintro ⟨⟨⟩,_⟩
      simp only [List.any_cons,absent,Bool.or_false,inserts,decide_eq_true_eq,Phase.inserted,true_and]
      exact eq_comm
    · simp [Phase.wrote,lastWrite,writeOf]
    · intro _
      refine ⟨⟨.reserved,none,res⟩,?_,rfl,rfl⟩
      rw [shown]
      simp [Books.enter]
  · rw [answered]
    rw [shown]
    exact (under.idle (.entry (fun _ => rfl) (fun _ => rfl) rfl) trivial).cause early

theorem guarded_keeps (now : ℤ) (under : Under V id none .bare origin (h,s)) :
    (guarded d intent o id now).keeps (contract V) (fun outcome => Under V id outcome.2 .bare)
      (fun _ => Cause V id none false) origin h s := by
  have early : Phase.bare = .bare ∨ Phase.bare = .rowed := .inl rfl
  have checked : ∀ (result : Except Failure Unit) {origin h s}, Under V id none .bare origin (h,s) →
      (Program.ofExcept result : Gateway Unit).keeps (contract V) (fun _ => Under V id none .bare)
        (fun _ => Cause V id none false) origin h s := by
    intro result origin h s under
    rw [keeps_ofExcept]
    exact ⟨fun _ _ => under,fun _ _ => under.cause early⟩
  unfold guarded
  apply keeps_then (under.call rfl early)
  intro policy origin h s under
  apply keeps_then (checked _ under)
  intro _ origin h s under
  apply keeps_then (checked _ under)
  intro _ origin h s under
  have supported : (assertMintsSupported intent policy).keeps (contract V) (fun _ => Under V id none .bare)
      (fun _ => Cause V id none false) origin h s := by
    unfold assertMintsSupported
    apply keeps_then (under.call rfl early)
    intro infos origin h s under
    exact under.reject early _ _
  apply keeps_then supported
  intro _ origin h s under
  cases quoteBucketFor intent.inputMint with
  | none => exact under
  | some bucket =>
    simp only [keeps_bind]
    apply keeps_call rfl
    intro choice fitting
    rw [contract_handle]
    have unowned : ∀ r, h.any (owns r) = false := by
      intro r
      rw [Bool.eq_false_iff,ne_eq,under.made.owned]
      rintro ⟨⟩
    rcases books_reserve s choice _ with ⟨hour,day,answered,free,shown⟩ | ⟨refused,same⟩
    · rw [answered]
      have owned : ∀ args r, (⟨.reserve args,.ok (.ok choice.id hour day)⟩ :: h : Log).any (owns r) ↔
          r = choice.id ∨ h.any (owns r) := by
        intro args r
        simp only [List.any_cons,Bool.or_eq_true,owns,decide_eq_true_eq]
        rw [eq_comm]
      refine ⟨⟨?_,?_⟩,⟨?_,under.made.row⟩,under.unlisted,trivial,?_,by simp⟩
      · rw [shown]
        exact under.closed.sane.hold free
      · rw [shown]
        exact under.closed.did.hold (List.suffix_cons _ _) (fun _ => rfl) (owned _) free
      · intro r
        rw [owned,unowned]
        simp [eq_comm]
      · rintro _ r ⟨⟩
        rw [shown]
        exact under.closed.sane.loose free fitting.1.named
    · rw [same]
      generalize (handle choice (.reserve _) s).1 = answer at refused ⊢
      rcases answer with error | ⟨id,hour,day⟩ | ⟨reason,cap,would⟩
      · exact (under.idle (.entry (fun _ => rfl) (fun _ => rfl) rfl) trivial).cause early
      · exact absurd rfl (refused id hour day)
      · exact (under.idle (.entry (fun _ => rfl) (fun _ => rfl) rfl) trivial).cause early

theorem Under.rename (under : Under V id none .bare origin (h,s)) (id' : String) : Under V id' none .bare origin (h,s) where
  closed := under.closed
  made := ⟨under.made.owned,fun i => by simp [under.made.row,Phase.inserted]⟩
  unlisted := under.unlisted
  wrote := trivial
  loose := by rintro _ r ⟨⟩
  row bare := absurd rfl bare

theorem live_keeps (sane : Sane (books s)) :
    (live d intent o).keeps (contract V) (fun _ => Over V) (fun _ => Over V) ([],s) [] s := by
  have early : Phase.bare = .bare ∨ Phase.bare = .rowed := .inl rfl
  have under : Under V "" none .bare ([],s) ([],s) :=
    ⟨⟨sane,.refl _ _⟩,⟨fun r => by simp,fun i => by simp [Phase.inserted]⟩,rfl,trivial,by rintro _ r ⟨⟩,by simp⟩
  have silent : ∀ {op : Op} {origin : Moment} {h : Log} {s : KernelStore}, Under V "" none .bare origin (h,s) → op.silent →
      (Program.call op : Gateway op.Ans).keeps (contract V) (fun _ => Under V "" none .bare) (fun _ => Over V) origin h s := by
    intro op origin h s under silent
    exact keeps_mono _ (under.call silent early) (fun _ _ _ under => under) fun _ _ _ cause => cause.closed
  have failed : ∀ {name : String} {res : Option String} {inserted : Bool} (error : Failure) (origin now : Moment),
      Cause V name res inserted origin now →
      (Kernel.abandon name res inserted error).keeps (contract V) (fun _ => Over V) (fun _ => Over V) origin now.1 now.2 :=
    fun error _ _ cause => cause.abandon error
  unfold live
  apply keeps_then (silent under rfl)
  intro now origin h s under
  apply keeps_then (silent under rfl)
  intro tradeId origin h s under
  apply keeps_then (silent under rfl)
  intro claimed origin h s under
  split
  · rw [keeps_attempt]
    apply keeps_mono _ (guarded_keeps now (under.rename tradeId)) _ failed
    intro outcome origin now' under
    rw [keeps_attempt]
    apply keeps_mono _ (register_keeps now outcome.1 under) _ failed
    intro baseline origin now' under
    rw [keeps_attempt]
    apply keeps_mono _ (land_keeps now outcome.1 baseline.1 baseline.2 under) _ failed
    exact fun _ _ _ closed => closed
  · apply keeps_then (silent under rfl)
    intro prior origin h s under
    exact under.closed

end Sent

end Live

section Recover
variable {V : String → ConfirmStatus} {h : Log} {s : KernelStore} {origin : Moment}

/-- Between two effects of a recovery that has read `rows`. -/
structure Checking (V : String → ConfirmStatus) (rows : List TradeRow) (origin now : Moment) : Prop where
  closed : Over V origin now
  unowned : ∀ r, now.1.any (owns r) = false
  absent : ∀ id, now.1.any (inserts id) = false
  read : listedRows now.1 = rows
  listed : ∀ row ∈ rows, ∃ m, (books now.2).trade row.id = some m ∧ m.signature = row.signature ∧
    m.reservation = row.reservationId ∧ Settling V m

variable {rows : List TradeRow}

theorem Checking.knows (checking : Checking V rows origin (h,s)) : Knows V h (books s) where
  own id mine := by simp [show h.any (inserts id) = false from checking.absent id] at mine
  made r mine := by simp [show h.any (owns r) = false from checking.unowned r] at mine
  loose r mine := by simp [show h.any (owns r) = false from checking.unowned r] at mine
  listed := by
    rw [show listedRows h = rows from checking.read]
    exact checking.listed

theorem Checking.confirm (checking : Checking V rows origin (h,s)) (signature : String) (height : ℕ) :
    (call (Op.confirm signature height) : Gateway ConfirmStatus).keeps (contract V)
      (fun status origin now => Checking V rows origin now ∧ status = V signature) (fun _ => Over V) origin h s := by
  apply keeps_await (k := contract V) rfl (show (contract V).good _ _ from ⟨checking.closed,checking.knows⟩)
  intro later rests choice fitting
  have start : Over V (h,later) (h,later) := ⟨rests.1,.refl _ _⟩
  have next := fun answer => start.silent (show (Op.confirm signature height).silent from rfl) choice answer
  rw [contract_handle]
  rw [show handle choice (.confirm signature height) later = (choice.reply (.confirm signature height),later) from rfl]
    at next ⊢
  cases replied : choice.reply (.confirm signature height) with
  | ok status =>
    refine ⟨⟨next _,checking.unowned,checking.absent,checking.read,?_⟩,fitting.1.judged _ _ status replied⟩
    rw [← checking.read]
    exact rests.2.listed
  | error error => exact next _

theorem Checking.conclude (checking : Checking V rows origin (h,s)) {id signature : String} {m : Mark}
    (found : (books s).trade id = some m) (signed : m.signature = some signature)
    (state : m.state = .sent ∨ m.state = (V signature).ended) {change : SpendState → SpendState}
    (closing : ∀ old, old = .reserved ∨ old = spendOf (V signature).ended → change old = spendOf (V signature).ended)
    {origin' now : Moment}
    (stands : Stands origin h (((books s).settle m.reservation change).mark id fun m => { m with state := (V signature).ended })
      origin' now) : Checking V rows origin' now := by
  have start : Over V (h,s) (h,s) := ⟨checking.closed.sane,.refl _ _⟩
  have since := start.conclude found signed state closing ⟨rfl,stands.quiet,stands.shown⟩
  have unowned : ∀ r, now.1.any (owns r) = false := by
    intro r
    rw [stands.quiet.owned]
    exact checking.unowned r
  have absent : ∀ id, now.1.any (inserts id) = false := by
    intro id
    rw [stands.quiet.inserted]
    exact checking.absent id
  have knows : Knows V h (books now.2) := by
    apply checking.knows.stable since.did
    · exact fun id _ => absent id
    · exact fun r _ => unowned r
    · intro id mine
      simp [show now.1.any (inserts id) = false from absent id] at mine
  refine ⟨checking.closed.conclude found signed state closing stands,unowned,absent,stands.quiet.listed.trans checking.read,?_⟩
  rw [← checking.read]
  exact knows.listed

theorem truthy_of_ne {text : String} (named : text ≠ "") : truthy (some text) = some text := by
  simp [truthy,Option.filter,named]

theorem recoverTrade_keeps {row : TradeRow} (inside : row ∈ rows) (checking : Checking V rows origin (h,s)) :
    (recoverTrade row).keeps (contract V) (fun _ => Checking V rows) (fun _ => Over V) origin h s := by
  obtain ⟨_,_,signed,_,signature,signed',named,_⟩ := checking.listed row inside
  unfold recoverTrade
  rw [show truthy row.signature = some signature by rw [← signed,signed',truthy_of_ne named]]
  apply keeps_then (checking.confirm signature row.lastValidBlockHeight)
  rintro status origin h s ⟨checking,rfl⟩
  obtain ⟨m,found,same,held,signature',signed'',_,state⟩ := checking.listed row inside
  obtain rfl : signature = signature' := by
    rw [same,← signed,signed',Option.some.injEq] at signed''
    exact signed''
  have spend : truthy row.reservationId = m.reservation := by
    rw [← held]
    cases reservation : m.reservation with
    | none => rfl
    | some r => exact truthy_of_ne (checking.closed.sane.named row.id m r found reservation)
  rw [spend]
  split
  · rename_i confirmed
    apply keeps_then ((Stands.begin origin h s).consume _)
    intro _ _ _ _ stands
    apply keeps_then stands.now
    intro now _ _ _ stands
    apply keeps_then (stands.setState row.id .confirmed now)
    intro _ _ _ _ stands
    have closing : ∀ old, old = .reserved ∨ old = spendOf (V signature).ended →
        (fun _ => SpendState.consumed) old = spendOf (V signature).ended := by
      intro _ _
      rw [confirmed]
      rfl
    apply checking.conclude found signed'' state closing
    rw [confirmed]
    exact stands
  · rename_i other
    apply keeps_then ((Stands.begin origin h s).release _)
    intro _ _ _ _ stands
    apply keeps_then stands.now
    intro now _ _ _ stands
    apply keeps_then (stands.fail row.id _ _ now)
    intro _ _ _ _ stands
    apply checking.conclude found signed'' state (released_closing other)
    rw [gaveUp_ended other] at stands
    exact stands

theorem recoverTrades_keeps (trades : List TradeRow) (summary : ReconcileSummary) (inside : trades ⊆ rows)
    (checking : Checking V rows origin (h,s)) :
    (recoverTrades trades summary).keeps (contract V) (fun _ => Over V) (fun _ => Over V) origin h s := by
  induction trades generalizing summary origin h s with
  | nil => exact checking.closed
  | cons row trades ih =>
    unfold recoverTrades
    apply keeps_then (recoverTrade_keeps (inside List.mem_cons_self) checking)
    intro confirmed origin h s checking
    exact ih _ (List.subset_of_cons_subset inside) checking

theorem recover_keeps (sane : Sane (books s)) :
    recover.keeps (contract V) (fun _ => Over V) (fun _ => Over V) ([],s) [] s := by
  have start : Over V ([],s) ([],s) := ⟨sane,.refl _ _⟩
  unfold recover
  rw [keeps_bind]
  apply keeps_call rfl
  intro choice _
  refine recoverTrades_keeps s.pendingSent _ (List.Subset.refl _) ⟨⟨sane,?_⟩,fun _ => rfl,fun _ => rfl,?_,?_⟩
  · exact start.did.onward ⟨List.suffix_cons _ _,fun _ => rfl,fun _ => rfl⟩ (.refl _ _ _)
  · simp [listedRows,listings]
  · intro row inside
    have found := books_pending s inside
    obtain ⟨signature,signed,named⟩ := sane.signed row.id _ found rfl
    exact ⟨_,found,rfl,rfl,signature,signed,named,.inl rfl⟩

end Recover

end RatifyOs.Kernel
