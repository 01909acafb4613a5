import RatifyOs.Async.Cooperative
import RatifyOs.Kernel.Books

/-! Where a trade and its reservation stand whenever every call waits, provided a signature
has one outcome. -/
namespace RatifyOs.Kernel
open Async Data
open Async.Program hiding pure throw

/-- The reservation that goes with the state of a trade. -/
def spendOf : TradeState → SpendState
  | .reserved | .sent => .reserved
  | .confirmed => .consumed
  | .expired | .errored | .rejected => .released

/-- The state a trade ends in on an answer of the confirmer. -/
def ConfirmStatus.ended : ConfirmStatus → TradeState
  | confirmed => .confirmed
  | expired => .expired
  | failed => .errored

def Op.awaits : Op → Bool
  | inspect _ _ | readPair _ _ _ | readPosition _ | simulate _ | sign _ | broadcast _ _ _ | confirm _ _ => true
  | _ => false

/-- The awaits whose failure makes `#live` give a sent trade up. -/
def Op.decides : Op → Bool
  | confirm _ _ | readPair _ _ _ => true
  | _ => false

def signatureOf (id : String) : Record → Option String
  | ⟨.persistSigned name _ signature _,_⟩ => if name = id then some signature else none
  | ⟨.setSignature name signature _,_⟩ => if name = id then some signature else none
  | _ => none

def signedAs (id : String) : Log → Option String
  | [] => none
  | entry :: h => (signatureOf id entry).orElse fun _ => signedAs id h

def listedRows (h : Log) : List TradeRow := h.flatMap listings

/-- The turn began with a failed confirmation or balance read. -/
def Dropped (before after : Log) : Prop :=
  ∃ op error, Op.decides op = true ∧ (⟨op,.error error⟩ :: before : Log) <:+ after

structure Loose (b : Books) (r : String) : Prop where
  there : b.spend r = some .reserved
  named : r ≠ ""
  nobody : ∀ id m, b.trade id = some m → m.reservation ≠ some r

section Assertions
variable (V : String → ConfirmStatus)

/-- What holds of the books at every await. -/
structure Sane (b : Books) : Prop where
  agree : ∀ id m, b.trade id = some m → m.state ≠ .rejected ∧
    ∀ r, m.reservation = some r → b.spend r = some (spendOf m.state)
  distinct : ∀ id id' m m' r, b.trade id = some m → b.trade id' = some m' → m.reservation = some r →
    m'.reservation = some r → id = id'
  named : ∀ id m r, b.trade id = some m → m.reservation = some r → r ≠ ""
  signed : ∀ id m, b.trade id = some m → m.state = .sent → ∃ signature, m.signature = some signature ∧ signature ≠ ""

/-- Sent and still under way, or ended as its signature did. -/
def Settling (m : Mark) : Prop :=
  ∃ signature, m.signature = some signature ∧ signature ≠ "" ∧ (m.state = .sent ∨ m.state = (V signature).ended)

/-- What a waiting call knows of the books by what it has done. -/
structure Knows (h : Log) (b : Books) : Prop where
  own : ∀ id, h.any (inserts id) → ∃ m, b.trade id = some m ∧ (∀ r, m.reservation = some r ↔ h.any (owns r)) ∧
    (lastWrite id h = some .reserved → m.state = .reserved) ∧
    (lastWrite id h = some .sent → m.signature = signedAs id h ∧ Settling V m)
  made : ∀ r, h.any (owns r) → (b.spend r).isSome
  loose : ∀ r, h.any (owns r) → (∀ id, h.any (inserts id) = false) → Loose b r
  listed : ∀ row ∈ listedRows h, ∃ m, b.trade row.id = some m ∧ m.signature = row.signature ∧
    m.reservation = row.reservationId ∧ Settling V m

/-- What a turn of a call does to a row that is not its own to change. -/
structure Moved (m m' : Mark) : Prop where
  signature : m'.signature = m.signature
  state : m'.state = m.state ∨ m.state = .sent ∧ ∃ signature, m.signature = some signature ∧ m'.state = (V signature).ended

/-- What a call has done by the end of its turn. -/
structure Did (origin now : Log × Books) : Prop where
  grown : origin.1 <:+ now.1
  rows : ∀ id m, origin.2.trade id = some m → ∃ m', now.2.trade id = some m' ∧ m'.reservation = m.reservation ∧
    (m.state.terminal → m'.state = m.state) ∧
    ((now.1.any (inserts id) → m.state ≠ .reserved ∧ ¬(Dropped origin.1 now.1 ∧ lastWrite id origin.1 = some .sent)) →
      Moved V m m')
  fresh : ∀ id m', now.2.trade id = some m' → origin.2.trade id = none →
    now.1.any (inserts id) ∧ ∀ r, m'.reservation = some r → now.1.any (owns r)
  mine : ∀ id, now.1.any (inserts id) → origin.1.any (inserts id) ∨ origin.2.trade id = none
  made : ∀ r, now.1.any (owns r) → origin.1.any (owns r) ∨ origin.2.spend r = none
  spends : ∀ r x, origin.2.spend r = some x → ∃ x', now.2.spend r = some x' ∧ (x ≠ .reserved → x' = x) ∧
    (now.1.any (owns r) = false → (∀ id m, origin.2.trade id = some m → m.reservation ≠ some r) → x' = x)

end Assertions

section Stable
variable {V : String → ConfirmStatus} {b : Books}

theorem ended_terminal (status : ConfirmStatus) : status.ended.terminal = true := by cases status <;> rfl

theorem ended_ne (status : ConfirmStatus) :
    status.ended ≠ .reserved ∧ status.ended ≠ .sent ∧ status.ended ≠ .rejected := by cases status <;> decide

theorem Moved.refl (m : Mark) : Moved V m m := ⟨rfl,.inl rfl⟩

theorem Settling.moved {m m' : Mark} (settling : Settling V m) (moved : Moved V m m') : Settling V m' := by
  obtain ⟨signature,signed,named,state⟩ := settling
  refine ⟨signature,moved.signature.trans signed,named,?_⟩
  rcases moved.state with same | ⟨_,other,signed',ended⟩
  · rw [same]
    exact state
  · rw [signed] at signed'
    cases signed'
    exact .inr ended

theorem Knows.stable {h : Log} {origin now : Log × Books} (knows : Knows V h origin.2)
    (did : Did V origin now) (others : ∀ id, h.any (inserts id) → now.1.any (inserts id) = false)
    (reservations : ∀ r, h.any (owns r) → now.1.any (owns r) = false)
    (unlisted : ∀ id, now.1.any (inserts id) → Dropped origin.1 now.1 → lastWrite id origin.1 = some .sent →
      ∀ row ∈ listedRows h, row.id ≠ id) :
    Knows V h now.2 where
  own id mine := by
    obtain ⟨m,found,held,reserved,sent⟩ := knows.own id mine
    obtain ⟨m',found',same,_,moves⟩ := did.rows id m found
    have moved := moves fun theirs => by simp [others id mine] at theirs
    refine ⟨m',found',by simpa only [same] using held,?_,?_⟩
    · intro last
      rcases moved.state with still | ⟨other,_⟩
      · rw [still]
        exact reserved last
      · rw [reserved last] at other
        cases other
    · intro last
      obtain ⟨signed,settling⟩ := sent last
      exact ⟨moved.signature.trans signed,settling.moved moved⟩
  made r mine := by
    obtain ⟨x,found⟩ := Option.isSome_iff_exists.mp (knows.made r mine)
    obtain ⟨x',found',_⟩ := did.spends r x found
    simp [found']
  loose r mine bare := by
    obtain ⟨found,named,nobody⟩ := knows.loose r mine bare
    obtain ⟨x',found',_,kept⟩ := did.spends r _ found
    refine ⟨by rw [found',kept (reservations r mine) nobody],named,?_⟩
    intro id m there held
    cases before : origin.2.trade id with
    | none =>
      have theirs := (did.fresh id m there before).2 r held
      simp [reservations r mine] at theirs
    | some m₀ =>
      obtain ⟨m',there',same,_⟩ := did.rows id m₀ before
      rw [there] at there'
      cases there'
      exact nobody id m₀ before (same ▸ held)
  listed row inside := by
    obtain ⟨m,found,signed,held,settling⟩ := knows.listed row inside
    obtain ⟨m',found',same,_,moves⟩ := did.rows row.id m found
    have moved : Moved V m m' := by
      apply moves
      intro theirs
      constructor
      · intro reserved
        obtain ⟨signature,_,_,state⟩ := settling
        rw [reserved] at state
        rcases state with other | other
        · cases other
        · exact (ended_ne _).1 other.symm
      · rintro ⟨dropped,last⟩
        exact unlisted row.id theirs dropped last row inside rfl
    exact ⟨m',found',moved.signature.trans signed,same.trans held,settling.moved moved⟩

theorem Moved.trans {m m' m'' : Mark} (first : Moved V m m') (second : Moved V m' m'') : Moved V m m'' := by
  refine ⟨second.signature.trans first.signature,?_⟩
  rcases second.state with same | ⟨sent,signature,signed,ended⟩
  · rw [same]
    exact first.state
  · right
    rw [first.signature] at signed
    rcases first.state with same | ⟨sent',_⟩
    · exact ⟨same ▸ sent,signature,signed,ended⟩
    · exact ⟨sent',signature,signed,ended⟩

theorem Moved.unreserved {m m' : Mark} (moved : Moved V m m') (other : m.state ≠ .reserved) : m'.state ≠ .reserved := by
  rcases moved.state with same | ⟨_,_,_,ended⟩
  · rwa [same]
  · rw [ended]
    exact (ended_ne _).1

theorem Did.refl (h : Log) (b : Books) : Did V (h,b) (h,b) where
  grown := List.suffix_refl h
  rows id m found := ⟨m,found,rfl,fun _ => rfl,fun _ => .refl m⟩
  fresh id m' found absent := by
    rw [show b.trade id = some m' from found] at absent
    cases absent
  mine id inserted := .inl inserted
  made r owned := .inl owned
  spends r x found := ⟨x,found,fun _ => rfl,fun _ _ => rfl⟩

/-- What a call may do to the books once more in a turn, when it makes nothing new. -/
structure Onward (V : String → ConfirmStatus) (origin : Log) (h : Log) (b b' : Books) : Prop where
  rows : ∀ id m, b.trade id = some m → ∃ m', b'.trade id = some m' ∧ m'.reservation = m.reservation ∧
    (m.state.terminal → m'.state = m.state) ∧
    ((h.any (inserts id) → m.state ≠ .reserved ∧ ¬(Dropped origin h ∧ lastWrite id origin = some .sent)) → Moved V m m')
  absent : ∀ id, b.trade id = none → b'.trade id = none
  spends : ∀ r x, b.spend r = some x → ∃ x', b'.spend r = some x' ∧ (x ≠ .reserved → x' = x) ∧
    (h.any (owns r) = false → (∀ id m, b.trade id = some m → m.reservation ≠ some r) → x' = x)

theorem Onward.refl (origin h : Log) (b : Books) : Onward V origin h b b where
  rows _ m found := ⟨m,found,rfl,fun _ => rfl,fun _ => .refl m⟩
  absent _ none' := none'
  spends _ x found := ⟨x,found,fun _ => rfl,fun _ _ => rfl⟩

structure Idle (h h' : Log) : Prop where
  longer : h <:+ h'
  inserted : ∀ id, h'.any (inserts id) = h.any (inserts id)
  owned : ∀ r, h'.any (owns r) = h.any (owns r)

structure Quiet (h h' : Log) : Prop extends Idle h h' where
  listed : listedRows h' = listedRows h

theorem Quiet.trans {h h' h'' : Log} (first : Quiet h h') (second : Quiet h' h'') : Quiet h h'' where
  longer := first.longer.trans second.longer
  inserted id := (second.inserted id).trans (first.inserted id)
  owned r := (second.owned r).trans (first.owned r)
  listed := second.listed.trans first.listed

theorem Quiet.entry {h : Log} {entry : Record} (inserted : ∀ id, inserts id entry = false)
    (owned : ∀ r, owns r entry = false) (listed : listings entry = []) : Quiet h (entry :: h) where
  longer := List.suffix_cons _ _
  inserted id := by simp [inserted]
  owned r := by simp [owned]
  listed := by simp [listedRows,listed]

theorem Did.onward {origin : Log × Books} {h h' : Log} {b' : Books} (did : Did V origin (h,b)) (quiet : Idle h h')
    (step : Onward V origin.1 h' b b') : Did V origin (h',b') where
  grown := did.grown.trans quiet.longer
  rows id m found := by
    obtain ⟨m₁,found₁,held₁,ended₁,moves₁⟩ := did.rows id m found
    obtain ⟨m₂,found₂,held₂,ended₂,moves₂⟩ := step.rows id m₁ found₁
    refine ⟨m₂,found₂,held₂.trans held₁,?_,?_⟩
    · intro terminal
      rw [ended₂ (by rw [ended₁ terminal]; exact terminal),ended₁ terminal]
    · intro allowed
      have before : h.any (inserts id) → m.state ≠ .reserved ∧ ¬(Dropped origin.1 h ∧ lastWrite id origin.1 = some .sent) := by
        intro mine
        obtain ⟨other,kept⟩ := allowed (by rw [quiet.inserted]; exact mine)
        refine ⟨other,?_⟩
        rintro ⟨⟨op,error,decides,first⟩,last⟩
        exact kept ⟨⟨op,error,decides,first.trans quiet.longer⟩,last⟩
      have first := moves₁ before
      refine first.trans (moves₂ ?_)
      intro mine
      exact ⟨first.unreserved (allowed mine).1,(allowed mine).2⟩
  fresh id m' found absent := by
    rw [quiet.inserted]
    cases before : b.trade id with
    | none => simp [step.absent id before] at found
    | some m =>
      obtain ⟨m₂,found₂,held₂,_⟩ := step.rows id m before
      rw [found] at found₂
      cases found₂
      obtain ⟨mine,holds⟩ := did.fresh id m before absent
      refine ⟨mine,?_⟩
      intro r held
      rw [quiet.owned]
      exact holds r (held₂ ▸ held)
  mine id mine := did.mine id (by rw [← quiet.inserted]; exact mine)
  made r mine := did.made r (by rw [← quiet.owned]; exact mine)
  spends r x found := by
    obtain ⟨x₁,found₁,kept₁,idle₁⟩ := did.spends r x found
    obtain ⟨x₂,found₂,kept₂,idle₂⟩ := step.spends r x₁ found₁
    refine ⟨x₂,found₂,?_,?_⟩
    · intro closed
      rw [kept₂ (by rw [kept₁ closed]; exact closed),kept₁ closed]
    · intro others nobody
      have others₁ : h.any (owns r) = false := by rw [← quiet.owned]; exact others
      rw [idle₂ others,idle₁ others₁ nobody]
      intro id m there held
      cases before : origin.2.trade id with
      | none =>
        have mine := (did.fresh id m there before).2 r held
        simp [others₁] at mine
      | some m₀ =>
        obtain ⟨m₁,there₁,held₁,_⟩ := did.rows id m₀ before
        rw [there] at there₁
        cases there₁
        exact nobody id m₀ before (held₁ ▸ held)

theorem trade_close (b : Books) (id : String) (reservation : Option String) (state : TradeState) (spend : SpendState)
    (i : String) : (b.close id reservation state spend).trade i =
      if i = id then (b.trade i).map fun m => { m with state } else b.trade i := rfl

theorem Sane.close (sane : Sane b) {id : String} {m : Mark} (found : b.trade id = some m) {state : TradeState}
    (terminal : state.terminal) (known : state ≠ .rejected) : Sane (b.close id m.reservation state (spendOf state)) := by
  have back : ∀ i m', (b.close id m.reservation state (spendOf state)).trade i = some m' →
      ∃ m₀, b.trade i = some m₀ ∧ m'.reservation = m₀.reservation ∧ m'.signature = m₀.signature ∧
        (i = id ∧ m'.state = state ∨ i ≠ id ∧ m'.state = m₀.state) := by
    intro i m' there
    rw [trade_close] at there
    by_cases same : i = id
    · rw [if_pos same,same,found] at there
      cases there
      exact ⟨m,same ▸ found,rfl,rfl,.inl ⟨same,rfl⟩⟩
    · rw [if_neg same] at there
      exact ⟨m',there,rfl,rfl,.inr ⟨same,rfl⟩⟩
  constructor
  · intro i m' there
    obtain ⟨m₀,before,held,_,here⟩ := back i m' there
    have agreed := sane.agree i m₀ before
    rcases here with ⟨rfl,now⟩ | ⟨other,now⟩
    · rw [found] at before
      cases before
      refine ⟨now ▸ known,?_⟩
      intro r reserved
      rw [held] at reserved
      simp [Books.close,reserved,now]
    · refine ⟨now ▸ agreed.1,?_⟩
      intro r reserved
      rw [held] at reserved
      have apart : m.reservation ≠ some r := fun mine => other (sane.distinct i id m₀ m r before found reserved mine)
      simp only [Books.close,if_neg apart,now]
      exact agreed.2 r reserved
  · intro i j mi mj r there there' heldI heldJ
    obtain ⟨m₁,before₁,held₁,_⟩ := back i mi there
    obtain ⟨m₂,before₂,held₂,_⟩ := back j mj there'
    exact sane.distinct i j m₁ m₂ r before₁ before₂ (held₁ ▸ heldI) (held₂ ▸ heldJ)
  · intro i m' r there reserved
    obtain ⟨m₀,before,held,_⟩ := back i m' there
    exact sane.named i m₀ r before (held ▸ reserved)
  · intro i m' there sent
    obtain ⟨m₀,before,_,signed,here⟩ := back i m' there
    rcases here with ⟨_,now⟩ | ⟨_,now⟩
    · rw [sent] at now
      subst now
      cases terminal
    · obtain ⟨signature,same,named⟩ := sane.signed i m₀ before (now ▸ sent)
      exact ⟨signature,signed.trans same,named⟩

theorem Sane.onward_close (sane : Sane b) {origin h : Log} {id : String} {m : Mark} (found : b.trade id = some m)
    {state : TradeState} (ends : m.state.terminal → state = m.state)
    (move : (h.any (inserts id) → m.state ≠ .reserved ∧ ¬(Dropped origin h ∧ lastWrite id origin = some .sent)) →
      Moved V m { m with state }) : Onward V origin h b (b.close id m.reservation state (spendOf state)) where
  rows i m₀ there := by
    rw [trade_close]
    by_cases same : i = id
    · subst same
      rw [found] at there
      cases there
      rw [if_pos rfl,found]
      exact ⟨_,rfl,rfl,ends,move⟩
    · rw [if_neg same]
      exact ⟨m₀,there,rfl,fun _ => rfl,fun _ => .refl m₀⟩
  absent i none' := by
    rw [trade_close,none']
    simp
  spends r x there := by
    by_cases mine : m.reservation = some r
    · have agreed := (sane.agree id m found).2 r mine
      rw [there] at agreed
      refine ⟨spendOf state,by simp [Books.close,mine],?_,?_⟩
      · intro closed
        cases agreed
        rw [ends]
        revert closed
        cases m.state <;> simp [spendOf,TradeState.terminal]
      · intro _ nobody
        exact absurd mine (nobody id m found)
    · exact ⟨x,by simpa [Books.close,mine] using there,fun _ => rfl,fun _ _ => rfl⟩

theorem Sane.hold (sane : Sane b) {r : String} (free : b.spend r = none) : Sane (b.hold r) where
  agree id m there := by
    refine ⟨(sane.agree id m there).1,?_⟩
    intro x held
    have agreed := (sane.agree id m there).2 x held
    have other : x ≠ r := by
      rintro rfl
      rw [free] at agreed
      cases agreed
    simpa [Books.hold,other] using agreed
  distinct := sane.distinct
  named := sane.named
  signed := sane.signed

theorem Sane.loose (sane : Sane b) {r : String} (free : b.spend r = none) (named : r ≠ "") : Loose (b.hold r) r where
  there := by simp [Books.hold]
  named
  nobody id m there held := by
    have agreed := (sane.agree id m there).2 r held
    rw [free] at agreed
    cases agreed

theorem Sane.release (sane : Sane b) {r : String} (loose : Loose b r) : Sane (b.respend r released) where
  agree id m there := by
    refine ⟨(sane.agree id m there).1,?_⟩
    intro x held
    have other : x ≠ r := by
      rintro rfl
      exact loose.nobody id m there held
    simpa [Books.respend,other] using (sane.agree id m there).2 x held
  distinct := sane.distinct
  named := sane.named
  signed := sane.signed

theorem Sane.enter (sane : Sane b) {id : String} {res : Option String} (free : b.trade id = none)
    (own : ∀ r, res = some r → Loose b r) : Sane (b.enter id ⟨.reserved,none,res⟩) := by
  have back : ∀ i m, (b.enter id ⟨.reserved,none,res⟩).trade i = some m →
      i = id ∧ m = ⟨.reserved,none,res⟩ ∨ i ≠ id ∧ b.trade i = some m := by
    intro i m there
    by_cases here : i = id
    · simp only [Books.enter,if_pos here,Option.some.injEq] at there
      exact .inl ⟨here,there.symm⟩
    · exact .inr ⟨here,by simpa [Books.enter,here] using there⟩
  constructor
  · intro i m there
    rcases back i m there with ⟨_,rfl⟩ | ⟨_,before⟩
    · exact ⟨by simp,fun r held => (own r held).there⟩
    · exact sane.agree i m before
  · intro i j mi mj r there there' heldI heldJ
    rcases back i mi there with ⟨rfl,rfl⟩ | ⟨_,before⟩
    · rcases back j mj there' with ⟨rfl,_⟩ | ⟨_,before'⟩
      · rfl
      · exact absurd heldJ ((own r heldI).nobody j mj before')
    · rcases back j mj there' with ⟨rfl,rfl⟩ | ⟨_,before'⟩
      · exact absurd heldI ((own r heldJ).nobody i mi before)
      · exact sane.distinct i j mi mj r before before' heldI heldJ
  · intro i m r there held
    rcases back i m there with ⟨_,rfl⟩ | ⟨_,before⟩
    · exact (own r held).named
    · exact sane.named i m r before held
  · intro i m there sent
    rcases back i m there with ⟨_,rfl⟩ | ⟨_,before⟩
    · cases sent
    · exact sane.signed i m before sent

theorem Sane.mark (sane : Sane b) {id : String} {m : Mark} (found : b.trade id = some m) {change : Mark → Mark}
    (same : (change m).reservation = m.reservation) (alike : spendOf (change m).state = spendOf m.state)
    (known : (change m).state ≠ .rejected)
    (signed : (change m).state = .sent → ∃ signature, (change m).signature = some signature ∧ signature ≠ "") :
    Sane (b.mark id change) := by
  have back : ∀ i m', (b.mark id change).trade i = some m' → ∃ m₀, b.trade i = some m₀ ∧
      m'.reservation = m₀.reservation ∧ (i = id ∧ m₀ = m ∧ m' = change m ∨ i ≠ id ∧ m' = m₀) := by
    intro i m' there
    simp only [Books.mark] at there
    by_cases here : i = id
    · rw [if_pos here,here,found] at there
      cases there
      exact ⟨m,here ▸ found,same,.inl ⟨here,rfl,rfl⟩⟩
    · rw [if_neg here] at there
      exact ⟨m',there,rfl,.inr ⟨here,rfl⟩⟩
  constructor
  · intro i m' there
    obtain ⟨m₀,before,held,⟨_,rfl,rfl⟩ | ⟨_,rfl⟩⟩ := back i m' there
    · refine ⟨known,?_⟩
      intro r reserved
      rw [alike]
      exact (sane.agree i m₀ before).2 r (held ▸ reserved)
    · exact sane.agree i m' before
  · intro i j mi mj r there there' heldI heldJ
    obtain ⟨m₁,before₁,held₁,_⟩ := back i mi there
    obtain ⟨m₂,before₂,held₂,_⟩ := back j mj there'
    exact sane.distinct i j m₁ m₂ r before₁ before₂ (held₁ ▸ heldI) (held₂ ▸ heldJ)
  · intro i m' r there reserved
    obtain ⟨m₀,before,held,_⟩ := back i m' there
    exact sane.named i m₀ r before (held ▸ reserved)
  · intro i m' there sent
    obtain ⟨m₀,before,_,⟨_,_,rfl⟩ | ⟨_,rfl⟩⟩ := back i m' there
    · exact signed sent
    · exact sane.signed i m' before sent

theorem onward_mark {origin h : Log} {id : String} {m : Mark} (found : b.trade id = some m) (mine : h.any (inserts id))
    (reserved : m.state = .reserved) {change : Mark → Mark} (same : (change m).reservation = m.reservation) :
    Onward V origin h b (b.mark id change) where
  rows i m₀ there := by
    simp only [Books.mark]
    by_cases here : i = id
    · subst here
      rw [found] at there
      cases there
      rw [if_pos rfl,found]
      refine ⟨_,rfl,same,?_,?_⟩
      · rw [reserved]
        intro terminal
        cases terminal
      · intro free
        exact absurd reserved (free mine).1
    · rw [if_neg here]
      exact ⟨m₀,there,rfl,fun _ => rfl,fun _ => .refl m₀⟩
  absent i none' := by simp [Books.mark,none']
  spends _ x there := ⟨x,there,fun _ => rfl,fun _ _ => rfl⟩

theorem onward_release {origin h : Log} {r : String} (mine : h.any (owns r)) :
    Onward V origin h b (b.respend r released) where
  rows _ m there := ⟨m,there,rfl,fun _ => rfl,fun _ => .refl m⟩
  absent _ none' := none'
  spends x old there := by
    simp only [Books.respend]
    by_cases here : x = r
    · subst here
      rw [if_pos rfl,there]
      refine ⟨_,rfl,?_,?_⟩
      · intro closed
        simp [released,closed]
      · intro others
        simp [mine] at others
    · rw [if_neg here]
      exact ⟨old,there,fun _ => rfl,fun _ _ => rfl⟩

theorem Did.hold {origin : Log × Books} {h h' : Log} {r : String} (did : Did V origin (h,b)) (longer : h <:+ h')
    (inserted : ∀ id, h'.any (inserts id) = h.any (inserts id))
    (owned : ∀ x, h'.any (owns x) ↔ x = r ∨ h.any (owns x)) (free : b.spend r = none) :
    Did V origin (h',b.hold r) where
  grown := did.grown.trans longer
  rows id m found := by
    obtain ⟨m',found',held,ended,moves⟩ := did.rows id m found
    refine ⟨m',found',held,ended,?_⟩
    intro allowed
    apply moves
    intro mine
    obtain ⟨other,kept⟩ := allowed (by rw [inserted]; exact mine)
    refine ⟨other,?_⟩
    rintro ⟨⟨op,error,decides,first⟩,last⟩
    exact kept ⟨⟨op,error,decides,first.trans longer⟩,last⟩
  fresh id m' found absent := by
    obtain ⟨mine,holds⟩ := did.fresh id m' found absent
    refine ⟨by rw [inserted]; exact mine,?_⟩
    intro x held
    exact (owned x).mpr (.inr (holds x held))
  mine id mine := did.mine id (by rw [← inserted]; exact mine)
  made x mine := by
    rcases (owned x).mp mine with rfl | before
    · right
      by_contra there
      obtain ⟨y,found⟩ := Option.ne_none_iff_exists'.mp there
      obtain ⟨y',found',_⟩ := did.spends x y found
      rw [free] at found'
      cases found'
    · exact did.made x before
  spends x old found := by
    obtain ⟨now,found',kept,idle⟩ := did.spends x old found
    have other : x ≠ r := by
      rintro rfl
      rw [free] at found'
      cases found'
    refine ⟨now,by simpa [Books.hold,other] using found',kept,?_⟩
    intro others nobody
    apply idle _ nobody
    by_contra mine
    rw [(owned x).mpr (.inr (by simpa using mine))] at others
    cases others

theorem Did.enter {origin : Log × Books} {h h' : Log} {id : String} {res : Option String} (did : Did V origin (h,b))
    (longer : h <:+ h') (inserted : ∀ i, h'.any (inserts i) ↔ i = id ∨ h.any (inserts i))
    (owned : ∀ x, h'.any (owns x) = h.any (owns x)) (own : ∀ r, res = some r → h.any (owns r))
    (free : b.trade id = none) : Did V origin (h',b.enter id ⟨.reserved,none,res⟩) where
  grown := did.grown.trans longer
  rows i m found := by
    obtain ⟨m',found',held,ended,moves⟩ := did.rows i m found
    have other : i ≠ id := by
      rintro rfl
      rw [free] at found'
      cases found'
    refine ⟨m',by simpa [Books.enter,other] using found',held,ended,?_⟩
    intro allowed
    apply moves
    intro mine
    obtain ⟨unreserved,kept⟩ := allowed ((inserted i).mpr (.inr mine))
    refine ⟨unreserved,?_⟩
    rintro ⟨⟨op,error,decides,first⟩,last⟩
    exact kept ⟨⟨op,error,decides,first.trans longer⟩,last⟩
  fresh i m' found absent := by
    by_cases here : i = id
    · subst here
      simp only [Books.enter,if_pos] at found
      cases found
      refine ⟨(inserted i).mpr (.inl rfl),?_⟩
      intro r held
      rw [owned]
      exact own r held
    · obtain ⟨mine,holds⟩ := did.fresh i m' (by simpa [Books.enter,here] using found) absent
      refine ⟨(inserted i).mpr (.inr mine),?_⟩
      intro r held
      rw [owned]
      exact holds r held
  mine i mine := by
    rcases (inserted i).mp mine with rfl | before
    · right
      by_contra there
      obtain ⟨m,found⟩ := Option.ne_none_iff_exists'.mp there
      obtain ⟨m',found',_⟩ := did.rows i m found
      rw [free] at found'
      cases found'
    · exact did.mine i before
  made x mine := did.made x (by rw [← owned]; exact mine)
  spends x old found := by
    obtain ⟨now,found',kept,idle⟩ := did.spends x old found
    refine ⟨now,found',kept,?_⟩
    intro others nobody
    exact idle (by rw [← owned]; exact others) nobody

end Stable

end RatifyOs.Kernel
