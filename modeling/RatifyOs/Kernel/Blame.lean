import RatifyOs.Kernel.Idempotency
import RatifyOs.Kernel.Outcomes

/-! What an answer of the gateway says of the transaction it was asked to send. -/
namespace RatifyOs.Kernel
open Async Data
open Async.Program hiding pure throw

section Grown
variable {α : Type} {h : Log}

theorem excused_of_suffix {after : Log} (grown : h <:+ after) (before : excused h) : excused after := by
  obtain ⟨entries,rfl⟩ := grown
  induction entries with
  | nil => exact before
  | cons entry entries ih => simp [excused,ih]

theorem any_of_suffix {after : Log} (p : Record → Bool) (grown : h <:+ after) (before : h.any p) : after.any p := by
  obtain ⟨entries,rfl⟩ := grown
  simp [before]

theorem wp_grown (p : Gateway α) (h : Log) :
    p.wp (fun _ _ => True) (fun _ after => h <:+ after) (fun _ after => h <:+ after) h := by
  have along : ∀ (p : Gateway α) (after : Log), h <:+ after →
      p.wp (fun _ _ => True) (fun _ after => h <:+ after) (fun _ after => h <:+ after) after := by
    intro p
    induction p with
    | pure value => exact fun _ grown => grown
    | throw error => exact fun _ grown => grown
    | perform op next ih =>
      intro after grown
      exact ⟨trivial,fun answer => ih answer _ (grown.trans (List.suffix_cons _ _))⟩
  exact along p h (List.suffix_refl h)

theorem wp_and {allow allow' : Log → Op → Prop} {Q Q' : α → Log → Prop} {E E' : Failure → Log → Prop} (p : Gateway α)
    {h : Log} (first : p.wp allow Q E h) (second : p.wp allow' Q' E' h) :
    p.wp allow (fun value h => Q value h ∧ Q' value h) (fun error h => E error h ∧ E' error h) h := by
  induction p generalizing h with
  | pure value => exact ⟨first,second⟩
  | throw error => exact ⟨first,second⟩
  | perform op next ih => exact ⟨first.1,fun answer => ih answer (first.2 answer) (second.2 answer)⟩

/-- A computation is passed with nothing known of it but that the log grows. -/
theorem wp_pass {β : Type} {p : Gateway α} {f : α → Gateway β} {Q : β → Log → Prop}
    (rest : ∀ value after, h <:+ after → (f value).wp (fun _ _ => True) Q (fun _ _ => True) after) :
    (p >>= f).wp (fun _ _ => True) Q (fun _ _ => True) h := by
  rw [wp_bind]
  exact wp_mono p (wp_grown p h) rest fun _ _ _ => trivial

end Grown

/-- The gateway says that the trade came to nothing. -/
def ExecuteResult.failed (r : ExecuteResult) : Bool := r.error.isSome && r.state ≠ .confirmed

section Blame
variable {d : Deployment} {intent : TradeIntent} {o : ExecuteOptions} {h : Log}

/-- A transaction that was handed over has been unsettled since. -/
def Blamed (h : Log) : Prop := h.any broadcasts → excused h ∨ h.any breaks

/-- A trade that is concluded is confirmed. -/
theorem conclude_confirmed (tradeId : String) (reservationId : Option String) (signature : String) (pre : Pair)
    (prePosition : Option ℤ) : (conclude d intent tradeId reservationId signature pre prePosition).wp (fun _ _ => True)
      (fun r _ => r.state = .confirmed) (fun _ _ => True) h := by
  unfold conclude
  apply wp_pass
  intro _ h _
  apply wp_pass
  intro _ h _
  apply wp_pass
  intro _ h _
  apply wp_pass
  intro _ h _
  apply wp_pass
  intro _ h _
  apply wp_pass
  intro _ h _
  rfl

theorem land_blamed (tradeId : String) (now : ℤ) (bucket : Option QuoteBucket) (reservationId : Option String) (pre : Pair)
    (prePosition : Option ℤ) :
    (land d intent o tradeId now bucket reservationId pre prePosition).wp (fun _ _ => True)
      (fun r h => r.state = .confirmed ∨ excused h) (fun _ _ => True) h := by
  unfold land
  apply wp_pass
  intro _ h _
  apply wp_pass
  intro _ h _
  apply wp_pass
  intro sim h _
  apply wp_pass
  intro _ h _
  apply wp_pass
  intro _ h _
  apply wp_pass
  intro signed h _
  apply wp_pass
  intro now h _
  apply wp_pass
  intro _ h _
  apply wp_pass
  intro _ h _
  apply wp_pass
  intro _ h _
  rw [wp_bind,wp_tryCatch,wp_call]
  refine ⟨trivial,fun signature => ?_,fun error => trivial⟩
  have handed : (⟨.broadcast intent.landMode signed intent.landHandle,.ok signature⟩ :: h : Log).any broadcasts := rfl
  generalize (⟨.broadcast intent.landMode signed intent.landHandle,.ok signature⟩ :: h : Log) = h at handed ⊢
  apply wp_pass
  intro t₁ h₁ grown₁
  apply wp_pass
  intro _ h₂ grown₂
  apply wp_pass
  intro t₂ h₃ grown₃
  apply wp_pass
  intro _ h₄ grown₄
  apply wp_pass
  intro _ h₅ grown₅
  have handed := any_of_suffix broadcasts
    (grown₁.trans (grown₂.trans (grown₃.trans (grown₄.trans grown₅)))) handed
  rw [wp_bind,wp_call]
  refine ⟨trivial,fun status => ?_,fun error => trivial⟩
  rw [wp_ite]
  refine ⟨fun other => ?_,fun _ => ?_⟩
  · have unsettled : excused (⟨.confirm signature intent.lastValidBlockHeight,.ok status⟩ :: h₅) := by
      simp [excused,unsettles,other,handed]
    apply wp_mono _ (wp_grown _ _) _ fun _ _ _ => trivial
    exact fun r after grown => .inr (excused_of_suffix grown unsettled)
  · exact wp_mono _ (conclude_confirmed tradeId reservationId signature pre prePosition) (fun _ _ confirmed => .inl confirmed)
      fun _ _ _ => trivial

theorem land_answer (tradeId : String) (now : ℤ) (bucket : Option QuoteBucket) (reservationId : Option String) (pre : Pair)
    (prePosition : Option ℤ) (ready : Ready tradeId reservationId true h) :
    (land d intent o tradeId now bucket reservationId pre prePosition).wp (fun _ _ => True)
      (fun r h => r.failed → Blamed h) (fun _ => Lost tradeId reservationId true) h := by
  apply wp_mono _ (wp_and _ (land_blamed tradeId now bucket reservationId pre prePosition) (land_wp now bucket pre prePosition ready))
  · rintro r h ⟨confirmed | unsettled,_⟩ failed _
    · simp [ExecuteResult.failed,confirmed] at failed
    · exact .inl unsettled
  · exact fun _ _ both => both.2

/-- Where the gateway answers that the trade came to nothing, a transaction that was handed
over was unsettled first. -/
theorem live_blamed : (live d intent o).wp (fun _ _ => True) (fun r h => r.failed → Blamed h) (fun _ => Blamed) [] := by
  have weaken : ∀ {α : Type} {p : Gateway α} {Q : α → Log → Prop} {E : Failure → Log → Prop} {h : Log},
      p.wp allow Q E h → p.wp (fun _ _ => True) Q E h := by
    intro α p Q E h good
    exact wp_weaken p (fun _ _ _ => trivial) good
  have lost : ∀ {tradeId reservationId inserted}, ∀ error h, Lost tradeId reservationId inserted h →
      (abandon tradeId reservationId inserted error).wp (fun _ _ => True) (fun r h => r.failed → Blamed h)
        (fun _ => Blamed) h := by
    intro tradeId reservationId inserted error h lost
    apply wp_mono _ (weaken (abandon_wp error lost))
    · exact fun _ _ lost _ => lost.excuse
    · exact fun _ _ lost => lost.excuse
  have nothing : ∀ h : Log, h.any broadcasts = false → Blamed h := by
    intro h none' handed
    rw [none'] at handed
    cases handed
  unfold live
  simp only [wp_bind,wp_call]
  refine ⟨trivial,fun now => ⟨trivial,fun tradeId => ⟨trivial,fun claimed => ?_,fun _ => nothing _ rfl⟩,
    fun _ => nothing _ rfl⟩,fun _ => nothing _ rfl⟩
  rw [wp_ite]
  refine ⟨fun _ => ?_,fun _ => ?_⟩
  rotate_left
  · rw [wp_bind,wp_call]
    exact ⟨trivial,fun _ _ => nothing _ rfl,fun _ => nothing _ rfl⟩
  have ready : Ready tradeId none false
      [⟨.claimIdempotency o.idempotencyKey tradeId now,.ok claimed⟩,⟨.newTradeId,.ok tradeId⟩,⟨.now,.ok now⟩] :=
    ⟨⟨fun r => by simp [owns],fun id => by simp [inserts]⟩,fun id => rfl,rfl,rfl⟩
  rw [wp_attempt]
  refine wp_mono _ (weaken (guarded_wp now ready)) (fun outcome h ready => ?_) lost
  rw [wp_attempt]
  refine wp_mono _ (weaken (register_wp now outcome.1 ready)) (fun baseline h ready => ?_) lost
  rw [wp_attempt]
  exact wp_mono _ (land_answer tradeId now outcome.1 outcome.2 baseline.1 baseline.2 ready) (fun _ _ blamed => blamed) lost

def Once (h : Log) (op : Op) : Prop := op.act = some .broadcast → h.any broadcasts = false

theorem acted_broadcast (h : Log) : Idempotency.acted .broadcast h = h.any broadcasts := by
  have same : (fun entry : Record => decide (entry.1.act = some Act.broadcast)) = broadcasts := by
    funext ⟨op,answer⟩
    cases op <;> rfl
  exact congrArg (List.any h) same

theorem live_blamed_once : (live d intent o).wp Once (fun r h => r.failed → Blamed h) (fun _ => Blamed) [] := by
  have permitted : (live d intent o).wp Once (fun _ _ => True) (fun _ _ => True) [] := by
    apply wp_weaken _ _ Idempotency.live_permitted
    intro h op permitted handing
    rw [← acted_broadcast]
    exact (permitted.1 .broadcast handing).2
  apply wp_mono _ (wp_and _ permitted live_blamed)
  · exact fun _ _ both => both.2
  · exact fun _ _ both => both.2

end Blame

end RatifyOs.Kernel
