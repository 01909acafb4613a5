import RatifyOs.Gateway.Core

/-! How often a request is handled, and whose responses its caller gets. -/
namespace RatifyOs.Gateway
open Data Data.Result

/-- The scope whose handler a call is running. -/
def Call.running? (c : Call) : Option Scope :=
  match c.phase with
  | .handling context => some (scopeOf c.request context)
  | _ => none

/-- Idempotent: a handler completes once for a scope and never runs twice at a time.
Private: a response is one for the same principal and session, and has the id of the request. -/
structure Sound (s : GatewayCore) : Prop where
  once : (s.completed.map (·.scope)).Nodup
  apart : ∀ c ∈ s.calls.rows, ∀ c' ∈ s.calls.rows, ∀ scope, c.running? = some scope → c'.running? = some scope → c = c'
  own : ∀ r ∈ s.returned, r.source.principal = r.scope.principal ∧ r.source.sessionId = r.scope.sessionId
  named : ∀ r ∈ s.returned, r.response.id = r.id

section Condition
variable (sha256 : Hashed → String) (s : GatewayCore)

/-- The scope's handler is not running, and what has been completed under the joined key for the
same content is of the same principal and session, and of the same frame id. -/
def Distinct (request : RequestFrame) (scope : Scope) : Prop :=
  (∀ c ∈ s.calls.rows, c.running? ≠ some scope) ∧
    ∀ done ∈ s.completed, done.scope.key = scope.key → done.hash = sha256 request.hashed →
      done.scope.principal = scope.principal ∧ done.scope.sessionId = scope.sessionId ∧ done.id = request.id

instance (request : RequestFrame) (scope : Scope) : Decidable (Distinct sha256 s request scope) :=
  inferInstanceAs (Decidable (_ ∧ _))

/-- A request is looked up while it is distinct. -/
def distinct : Event → Prop
  | .authenticated call verified device => ∀ c ∈ s.calls.rows, c.call = call →
      match authenticate c.auth verified device with
      | .ok context => Distinct sha256 s c.request (scopeOf c.request context)
      | .error _ => True
  | _ => True

instance : (event : Event) → Decidable (distinct sha256 s event)
  | .arrives _ _ _ => inferInstanceAs (Decidable True)
  | .handled _ _ => inferInstanceAs (Decidable True)
  | .authenticated call verified device =>
    have (c : Call) : Decidable (match authenticate c.auth verified device with
        | .ok context => Distinct sha256 s c.request (scopeOf c.request context)
        | .error _ => True) :=
      match authenticate c.auth verified device with
      | .ok context => inferInstanceAs (Decidable (Distinct sha256 s c.request (scopeOf c.request context)))
      | .error _ => inferInstanceAs (Decidable True)
    inferInstanceAs (Decidable (∀ c ∈ s.calls.rows, c.call = call → _))

end Condition

structure Kept (s : GatewayCore) : Prop where
  sound : Sound s
  /-- What is completed stays in the cache under its key. -/
  cached : ∀ done ∈ s.completed, ∃ entry, s.idempotency done.scope.key = some entry
  /-- What is in the cache was completed. -/
  stored : ∀ key entry, s.idempotency key = some entry →
    ∃ done ∈ s.completed, done.scope = entry.source ∧ entry.source.key = key ∧ done.hash = entry.hash ∧ done.id = entry.response.id
  fresh : ∀ c ∈ s.calls.rows, ∀ scope, c.running? = some scope → ∀ done ∈ s.completed, done.scope ≠ scope

section Steps
variable {config : GatewayConfig} {sha256 : Hashed → String} {s : GatewayCore} {c : Call}

theorem mem_settle (inside : c ∈ s.calls.rows) {c' : Call} :
    c' ∈ (s.settle c).calls.rows ↔ c' = { c with phase := .settled } ∨ c' ∈ s.calls.rows ∧ c'.call ≠ c.call :=
  Table.mem_put_iff (r := { c with phase := .settled }) (show s.calls.find? c.call = some c from Table.find?_of_mem inside)

/-- After a call has settled, what still runs ran before. -/
theorem running_settle (inside : c ∈ s.calls.rows) {c' : Call} {scope : Scope} (there : c' ∈ (s.settle c).calls.rows)
    (running : c'.running? = some scope) : c' ∈ s.calls.rows ∧ c'.call ≠ c.call := by
  rcases (mem_settle inside).mp there with rfl | old
  · cases running
  · exact old

theorem Kept.settle (kept : Kept s) (inside : c ∈ s.calls.rows) : Kept (s.settle c) := by
  refine ⟨⟨kept.sound.once,?_,kept.sound.own,kept.sound.named⟩,kept.cached,kept.stored,?_⟩
  · intro c₁ there₁ c₂ there₂ scope running₁ running₂
    exact kept.sound.apart c₁ (running_settle inside there₁ running₁).1 c₂ (running_settle inside there₂ running₂).1
      scope running₁ running₂
  · intro c' there scope running
    exact kept.fresh c' (running_settle inside there running).1 scope running

theorem Kept.returns (kept : Kept s) {r : Returned}
    (own : r.source.principal = r.scope.principal ∧ r.source.sessionId = r.scope.sessionId)
    (named : r.response.id = r.id) : Kept { s with returned := s.returned ++ [r] } := by
  refine ⟨⟨kept.sound.once,kept.sound.apart,?_,?_⟩,kept.cached,kept.stored,kept.fresh⟩
  · intro r' there
    rcases List.mem_append.mp there with old | last
    · exact kept.sound.own r' old
    · exact List.mem_singleton.mp last ▸ own
  · intro r' there
    rcases List.mem_append.mp there with old | last
    · exact kept.sound.named r' old
    · exact List.mem_singleton.mp last ▸ named

theorem Kept.starts (kept : Kept s) {context : GatewayContext} (inside : c ∈ s.calls.rows)
    (idle : ∀ c' ∈ s.calls.rows, c'.running? ≠ some (scopeOf c.request context))
    (absent : s.idempotency (scopeOf c.request context).key = none) :
    Kept { s with calls := s.calls.put { c with phase := .handling context } } := by
  have listed {other : Call} : other ∈ (s.calls.put { c with phase := .handling context }).rows ↔
      other = { c with phase := .handling context } ∨ other ∈ s.calls.rows ∧ other.call ≠ c.call :=
    Table.mem_put_iff (show s.calls.find? c.call = some c from Table.find?_of_mem inside)
  refine ⟨⟨kept.sound.once,?_,kept.sound.own,kept.sound.named⟩,kept.cached,kept.stored,?_⟩
  · intro c₁ there₁ c₂ there₂ scope running₁ running₂
    rcases listed.mp there₁ with rfl | ⟨old₁,-⟩ <;> rcases listed.mp there₂ with rfl | ⟨old₂,-⟩
    · rfl
    · cases running₁
      exact absurd running₂ (idle c₂ old₂)
    · cases running₂
      exact absurd running₁ (idle c₁ old₁)
    · exact kept.sound.apart c₁ old₁ c₂ old₂ scope running₁ running₂
  · intro c' there scope running done_ listed_ same
    rcases listed.mp there with rfl | ⟨old,-⟩
    · cases running
      obtain ⟨entry,found⟩ := kept.cached done_ listed_
      rw [same,absent] at found
      cases found
    · exact kept.fresh c' old scope running done_ listed_ same

theorem Kept.resume (kept : Kept s) {context : GatewayContext} (inside : c ∈ s.calls.rows)
    (distinct : Distinct sha256 s c.request (scopeOf c.request context)) : Kept (s.resume config sha256 c context) := by
  unfold GatewayCore.resume
  by_cases unknown : c.request.method ∉ config.handlers
  · simpa only [if_pos unknown] using kept.settle inside
  rw [if_neg unknown]
  cases found : s.idempotency (scopeOf c.request context).key with
  | none => exact kept.starts inside distinct.1 found
  | some prior =>
    dsimp only
    split_ifs with other
    · exact kept.settle inside
    · obtain ⟨done_,listed,source,key,hash,id⟩ := kept.stored _ prior found
      obtain ⟨principal,session,same_id⟩ := distinct.2 done_ listed (by rw [source,key]) (by rw [hash]; exact not_not.mp other)
      exact (kept.settle inside).returns (source ▸ ⟨principal,session⟩) (id.symm.trans same_id)

theorem Kept.finish (kept : Kept s) {context : GatewayContext} (inside : c ∈ s.calls.rows)
    (handling : c.phase = .handling context) (result : Option Json) : Kept (s.finish sha256 c context result) := by
  have running : c.running? = some (scopeOf c.request context) := by simp [Call.running?,handling]
  have new : ∀ done_ ∈ s.completed, done_.scope ≠ scopeOf c.request context := kept.fresh c inside _ running
  have settled := kept.settle inside
  unfold GatewayCore.finish
  constructor
  case sound =>
    refine ⟨?_,settled.sound.apart,?_,?_⟩
    · simp only [List.map_append,List.map_cons,List.map_nil,List.nodup_append,List.mem_map,List.mem_singleton]
      refine ⟨kept.sound.once,List.nodup_singleton _,?_⟩
      rintro _ ⟨done_,listed,rfl⟩ _ rfl
      exact new done_ listed
    · intro r there
      rcases List.mem_append.mp there with old | last
      · exact kept.sound.own r old
      · rw [List.mem_singleton.mp last]
        exact ⟨rfl,rfl⟩
    · intro r there
      rcases List.mem_append.mp there with old | last
      · exact kept.sound.named r old
      · rw [List.mem_singleton.mp last]
  case cached =>
    intro done_ there
    dsimp only
    split_ifs with same
    · exact ⟨_,rfl⟩
    · rcases List.mem_append.mp there with old | last
      · exact kept.cached done_ old
      · rw [List.mem_singleton.mp last] at same
        exact absurd rfl same
  case stored =>
    intro key entry found
    dsimp only at found
    split_ifs at found with same
    · cases found
      exact ⟨_,List.mem_append_right _ (List.mem_singleton_self _),rfl,same.symm,rfl,rfl⟩
    · obtain ⟨done_,listed,facts⟩ := kept.stored key entry found
      exact ⟨done_,List.mem_append_left _ listed,facts⟩
  case fresh =>
    intro c' there scope running' done_ listed
    obtain ⟨old,apart⟩ := running_settle inside there running'
    rcases List.mem_append.mp listed with before | last
    · exact kept.fresh c' old scope running' done_ before
    · rw [List.mem_singleton.mp last]
      rintro rfl
      exact apart (congrArg Call.call (kept.sound.apart c' old c inside _ running' running))

theorem Kept.step (kept : Kept s) (event : Event) (meets : distinct sha256 s event) :
    Kept (s.step config sha256 event) := by
  cases event with
  | arrives call raw auth =>
    cases read : readFrame config raw with
    | error => simpa only [GatewayCore.step,read] using kept
    | ok request =>
      cases inserted : s.calls.insert? ⟨call,request,auth,.authenticating⟩ with
      | none => simpa only [GatewayCore.step,read,inserted] using kept
      | some calls =>
        simp only [GatewayCore.step,read,inserted]
        obtain ⟨-,rows⟩ := Table.insert?_eq_some_iff.mp inserted
        have old {c scope} (there : c ∈ calls.rows) (running : c.running? = some scope) : c ∈ s.calls.rows := by
          rw [rows,List.mem_append,List.mem_singleton] at there
          rcases there with old | rfl
          · exact old
          · cases running
        refine ⟨⟨kept.sound.once,?_,kept.sound.own,kept.sound.named⟩,kept.cached,kept.stored,?_⟩
        · intro c₁ there₁ c₂ there₂ scope running₁ running₂
          exact kept.sound.apart c₁ (old there₁ running₁) c₂ (old there₂ running₂) scope running₁ running₂
        · exact fun c there scope running => kept.fresh c (old there running) scope running
  | authenticated call verified device =>
    simp only [GatewayCore.step]
    cases found : s.calls.find? call with
    | none => exact kept
    | some c =>
      obtain ⟨inside,same⟩ := Table.find?_eq_some_iff.mp found
      have here := meets c inside same
      cases phase : c.phase with
      | authenticating =>
        cases authenticated : authenticate c.auth verified device with
        | error => simpa [phase,authenticated] using kept.settle inside
        | ok context =>
          rw [authenticated] at here
          simpa [phase,authenticated] using kept.resume inside here
      | _ => simpa [phase] using kept
  | handled call result =>
    simp only [GatewayCore.step]
    cases found : s.calls.find? call with
    | none => exact kept
    | some c =>
      obtain ⟨inside,same⟩ := Table.find?_eq_some_iff.mp found
      cases phase : c.phase with
      | handling context =>
        cases result with
        | error => simpa [phase] using kept.settle inside
        | ok result => simpa [phase] using kept.finish inside phase result
      | _ => simpa [phase] using kept

end Steps

/-- Where every request is looked up while it is distinct, the gateway is idempotent and private. -/
theorem requests_sound (config : GatewayConfig) (sha256 : Hashed → String) (events : List Event)
    (meets : Run.Meets (GatewayCore.step config sha256) (fun s event => distinct sha256 s event) .start events) :
    Sound (Run.run (GatewayCore.step config sha256) .start events) := by
  have initial : Kept .start := by
    refine ⟨⟨List.nodup_nil,?_,?_,?_⟩,?_,?_,?_⟩ <;> simp [GatewayCore.start]
  exact (Run.invariant (I := Kept) (fun s event meets kept => kept.step event meets) initial meets).sound

namespace Sample

def config : GatewayConfig := ⟨["1.0"],65536,["echo"]⟩

def sha256 (h : Hashed) : String := h.method ++ " " ++ h.sessionId.getD "" ++ " " ++ h.runId.getD ""

def frame (id idempotencyKey : String) : RequestFrame := ⟨"1.0",id,"echo",idempotencyKey,none,none,none⟩

/-- A request up to the handler. -/
def requested (call : ℕ) (principal id idempotencyKey : String) : List Event :=
  [.arrives call ⟨false,true,100,some (frame id idempotencyKey)⟩ ⟨"credential",none⟩,
    .authenticated call (.ok (some ⟨principal⟩)) (.ok none)]

def answered (call : ℕ) : Event := .handled call (.ok (some (.num call)))

def served (events : List Event) : GatewayCore := Run.run (GatewayCore.step config sha256) .start events

/-- The request is sent again with the same frame id, and another one beside it. -/
theorem requests_sound_retried :
    (served (requested 1 "alice" "a" "k" ++ requested 2 "bob" "b" "k" ++ [answered 2,answered 1] ++
      requested 3 "alice" "a" "k")).returned.length = 3 ∧
    Sound (served (requested 1 "alice" "a" "k" ++ requested 2 "bob" "b" "k" ++ [answered 2,answered 1] ++
      requested 3 "alice" "a" "k")) := by
  constructor
  · decide +kernel
  · apply requests_sound
    decide +kernel

/-- Two copies of a request overlap, a retry has a frame id of its own, and two principals have
keys that join to the same text. -/
theorem requests_unsound :
    ¬Sound (served (requested 1 "alice" "a" "k" ++ requested 2 "alice" "a" "k" ++ [answered 1,answered 2])) ∧
    ¬Sound (served (requested 1 "alice" "a" "k" ++ answered 1 :: requested 2 "alice" "b" "k")) ∧
    ¬Sound (served (requested 1 "alice" "a" "x:-:k" ++ answered 1 :: requested 2 "alice:-:x" "a" "k")) := by
  refine ⟨fun sound => ?_,fun sound => ?_,fun sound => ?_⟩
  · exact absurd sound.once (by decide +kernel)
  · exact absurd sound.named (by decide +kernel)
  · exact absurd sound.own (by decide +kernel)

end Sample

end RatifyOs.Gateway
