import RatifyOs.Async.Crash
import RatifyOs.Data.Numeral
import RatifyOs.Data.Result
import RatifyOs.Gateway.Channels

/-! `TelegramRunner.pollOnce` and what it hands on, over restarts. -/
namespace RatifyOs.Gateway.Telegram
open Async Data Channels
open Async.Program hiding pure throw

def maxSafeInteger : ℤ := 2 ^ 53 - 1

section Channel

structure ReplyRoute where
  chatId : String
  threadId : Option String

inductive Action where
  | approve
  | reject

structure ApprovalCommand where
  action : Action
  approvalId : String

structure Sender where
  id : String
  username : Option String

structure Message where
  text : Option String
  sender : Option Sender
  chat : Option String
  messageThreadId : Option String
  date : Double

/-- An update whose number is there if it is a safe integer, with its message or edited message. -/
structure Update where
  updateId : Option ℤ
  message : Option Message

structure InboundEnvelope where
  id : String
  channel : String
  text : String
  sessionKey : String
  replyTo : ReplyRoute
  actor : Sender
  receivedAt : Double
  command : Option ApprovalCommand

def sessionKey (channel conversationId : String) (threadId : Option String) : String :=
  ":".intercalate (channel :: conversationId :: threadId.toList)

def approvalId (text : Text) : Bool :=
  3 ≤ text.length ∧ text.length ≤ 128 ∧ text.head?.any Char.isAlpha ∧
    text.all fun c => c.isAlphanum ∨ c = '_' ∨ c = '-'

/-- `/^\/(approve|reject)\s+([A-Za-z][A-Za-z0-9_-]{2,127})$/` on the trimmed text -/
def approvalCommand (text : String) : Option ApprovalCommand :=
  let after (action : Action) (rest : Text) : Option ApprovalCommand :=
    let id := rest.dropWhile white
    if id ≠ rest ∧ approvalId id then some ⟨action,String.ofList id⟩ else none
  match Text.trim text.toList with
  | '/' :: 'a' :: 'p' :: 'p' :: 'r' :: 'o' :: 'v' :: 'e' :: rest => after .approve rest
  | '/' :: 'r' :: 'e' :: 'j' :: 'e' :: 'c' :: 't' :: rest => after .reject rest
  | _ => none

structure Options where
  allowedUserIds : Option (List String)
  allowedChatIds : Option (List String)
  /-- Whether a handler for approvals was given. -/
  approval : Bool

def Options.authorize (o : Options) (userId chatId : String) : Bool :=
  userId ∈ o.allowedUserIds.getD [] ∧ (o.allowedChatIds.getD [] = [] ∨ chatId ∈ o.allowedChatIds.getD [])

/-- `TelegramChannel.receive` once the update has not been seen. -/
def envelope (o : Options) (updateId : ℤ) (message : Option Message) : Except String (Option InboundEnvelope) :=
  match message with
  | none => .ok none
  | some m =>
    match present m.text,m.sender with
    | some text,some sender =>
      match m.chat with
      | none => .error "TypeError"
      | some chatId =>
        if o.authorize sender.id chatId then
          .ok (some {
            id := s!"telegram:{updateId}"
            channel := "telegram"
            text
            sessionKey := sessionKey "telegram" chatId m.messageThreadId
            replyTo := ⟨chatId,m.messageThreadId⟩
            actor := sender
            receivedAt := m.date * 1000
            command := approvalCommand text })
        else .ok none
    | _,_ => .ok none

end Channel

section Poll

/-- The result is a list, or not; an element may be `null`. -/
structure Body where
  ok : Bool
  result : Option (List (Option Update))

/-- The answer to `getUpdates`; a body that is not JSON, or `null`, is absent. -/
structure Response where
  ok : Bool
  status : Option ℕ
  retryAfter : Option String
  body : Option Body

inductive Op where
  | load
  | getUpdates (offset : ℤ)
  | sleep (ms : Double)
  | save (offset : ℤ)
  /-- `this.seen`: whether the number was there before it was added -/
  | see (updateId : ℤ)
  | approval (updateId : ℤ) (inbound : InboundEnvelope)
  | dispatch (updateId : ℤ) (inbound : InboundEnvelope)
  | sendMessage (route : ReplyRoute) (text : Utf16)

abbrev Op.Ans : Op → Type
  | load => ℤ
  | getUpdates _ => Response
  | sleep _ => Unit
  | save _ => Unit
  | see _ => Bool
  | approval _ _ => Option Utf16
  | dispatch _ _ => Option Utf16
  | sendMessage _ _ => Bool

abbrev Polling := Program Op Op.Ans String

variable (o : Options)

def receive (updateId : ℤ) (update : Update) : Polling (Option InboundEnvelope) := do
  if ← call (Op.see updateId) then return none
  Program.ofExcept (envelope o updateId update.message)

def send (route : ReplyRoute) : List Utf16 → Polling Unit
  | [] => return
  | text :: rest => do
    let ok ← call (Op.sendMessage route text)
    reject (ok = false) "Telegram send failed"
    send route rest

/-- What the loop does with one update. -/
def handleUpdate (offset : ℤ) : Option Update → Polling Unit
  | none => throw "TypeError"
  | some update =>
    match update.updateId with
    | none => return
    | some updateId =>
      if updateId < offset then return
      else do
        call (Op.save (updateId + 1))
        match ← receive o updateId update with
        | none => return
        | some inbound => do
          let text ←
            if inbound.command.isSome ∧ o.approval then call (Op.approval updateId inbound)
            else call (Op.dispatch updateId inbound)
          send inbound.replyTo (chunks 4096 (text.getD []))

def handleUpdates (offset : ℤ) : List (Option Update) → Polling Unit
  | [] => return
  | update :: rest => do
    handleUpdate o offset update
    handleUpdates offset rest

/-- `Math.min(60, retry) * 1000` -/
def backoff (retryAfter : Option String) : Double :=
  let retry := (retryAfter.map fun text => Text.toNumber text.toList).getD 1
  if retry = .nan then .nan else if retry < 60 then retry * 1000 else 60 * 1000

def pollOnce : Polling Unit := do
  let offset ← call Op.load
  let r ← call (Op.getUpdates offset)
  if r.ok = false then
    if r.status = some 429 then call (Op.sleep (backoff r.retryAfter))
    else throw "Telegram polling failed"
  else
    match r.body with
    | none => throw "TypeError"
    | some body =>
      match body.ok,body.result with
      | true,some result => handleUpdates o offset result
      | _,_ => throw "Invalid Telegram response"

end Poll

section Machine

/-- What the offset file holds, where it holds an integer; the numbers the runner has seen since it
was started; and, for the record, the offsets stored and the updates handed on, in their order. -/
structure State where
  file : Option ℤ
  seen : List ℤ
  offsets : List ℤ
  passed : List ℤ

/-- `FileTelegramOffsetStore.load` of a file that can be read. -/
def stored (file : Option ℤ) : ℤ := (file.filter fun n => 0 ≤ n ∧ n ≤ maxSafeInteger).getD 0

def State.init (file : Option ℤ) : State := ⟨file,[],[stored file],[]⟩

/-- What is left of the state when the process is started again. -/
def restart (s : State) : State := { s with seen := [] }

/-- How the world answers an effect: whether it fails, whether the offset file can be read, and the
answers of the interface and of the handlers. -/
structure Choice where
  failure : Option String
  readable : Bool
  response : Response
  text : Option Utf16
  sent : Bool

def Choice.answer {α : Type} (choice : Choice) (value : α) : Except String α :=
  match choice.failure with
  | none => .ok value
  | some error => .error error

def handle (choice : Choice) : (op : Op) → State → Except String op.Ans × State
  | .load, s => (.ok (if choice.readable then stored s.file else 0),s)
  | .getUpdates _, s => (choice.answer choice.response,s)
  | .sleep _, s => (.ok (),s)
  | .save offset, s =>
    (choice.answer (),
      if choice.failure = none then { s with file := some offset,offsets := s.offsets ++ [stored (some offset)] } else s)
  | .see updateId, s => (.ok (updateId ∈ s.seen),{ s with seen := updateId :: s.seen })
  | .approval updateId _, s => (choice.answer choice.text,{ s with passed := s.passed ++ [updateId] })
  | .dispatch updateId _, s => (choice.answer choice.text,{ s with passed := s.passed ++ [updateId] })
  | .sendMessage _ _, s => (choice.answer choice.sent,s)

/-- An offset that was stored can be read, and none is stored that is below it or not safe. -/
def orderly : Op → State → Choice → Prop
  | .load, s, choice => choice.readable ∨ stored s.file = 0
  | .save offset, s, choice => choice.failure = none → stored s.file ≤ offset ∧ offset ≤ maxSafeInteger
  | _, _, _ => True

instance : (op : Op) → (s : State) → (choice : Choice) → Decidable (orderly op s choice)
  | .load, _, _ => inferInstanceAs (Decidable (_ ∨ _))
  | .save _, _, _ => inferInstanceAs (Decidable (_ → _ ∧ _))
  | .getUpdates _, _, _ | .sleep _, _, _ | .see _, _, _ | .approval _ _, _, _ | .dispatch _ _, _, _
  | .sendMessage _ _, _, _ => inferInstanceAs (Decidable True)

/-- Each number was handed on at most once, and the stored offset never went down. -/
def Once (s : State) : Prop := s.passed.Nodup ∧ s.offsets.Pairwise (· ≤ ·)

instance (s : State) : Decidable (Once s) := inferInstanceAs (Decidable (_ ∧ _))

end Machine

section Invariant

theorem stored_nonneg (file : Option ℤ) : 0 ≤ stored file := by
  unfold stored
  cases kept : file.filter fun n => 0 ≤ n ∧ n ≤ maxSafeInteger with
  | none => exact le_rfl
  | some n =>
    have held := (Option.filter_eq_some_iff.mp kept).2
    rw [decide_eq_true_eq] at held
    exact held.1

theorem stored_some {n : ℤ} (nonneg : 0 ≤ n) (safe : n ≤ maxSafeInteger) : stored (some n) = n := by
  rw [stored,Option.filter_some,if_pos (decide_eq_true ⟨nonneg,safe⟩)]
  rfl

/-- Whatever was handed on is below the offset that a restart will load. -/
structure Settled (s : State) : Prop where
  once : Once s
  below : ∀ id ∈ s.passed, id < stored s.file
  last : ∀ offset ∈ s.offsets, offset ≤ stored s.file

/-- Of what the filter lets through nothing was handed on but what this process has seen. -/
def Fresh (offset : ℤ) (s : State) : Prop := ∀ id ∈ s.passed, id < offset ∨ id ∈ s.seen

abbrev Keeps {α : Type} (p : Polling α) (Q : α → State → Prop) (s : State) : Prop :=
  p.holds (effect handle orderly Settled) Q (fun _ => Settled) s

theorem call_keeps {op : Op} {Q : op.Ans → State → Prop} {s : State} (settled : Settled s)
    (answers : ∀ choice, orderly op s choice → match handle choice op s with
      | (.ok value,s') => Q value s'
      | (.error _,s') => Settled s') : Keeps (call op) Q s := by
  refine (holds_call op).mpr ⟨settled,fun choice fits => ?_⟩
  have answer := answers choice fits
  generalize handle choice op s = result at answer
  obtain ⟨answer_ | value,s'⟩ := result <;> exact answer

variable {s : State} {offset : ℤ}

theorem Settled.save (settled : Settled s) {n : ℤ} (ahead : stored s.file ≤ n) (safe : n ≤ maxSafeInteger) :
    Settled { s with file := some n,offsets := s.offsets ++ [stored (some n)] } := by
  have same := stored_some ((stored_nonneg s.file).trans ahead) safe
  refine ⟨⟨settled.once.1,?_⟩,fun id inside => ?_,fun old inside => ?_⟩
  · rw [List.pairwise_append]
    refine ⟨settled.once.2,List.pairwise_singleton _ _,fun old inside new here => ?_⟩
    rw [List.mem_singleton.mp here,same]
    exact (settled.last old inside).trans ahead
  · rw [same]
    exact (settled.below id inside).trans_le ahead
  · rcases List.mem_append.mp inside with older | here
    · rw [same]
      exact (settled.last old older).trans ahead
    · exact (List.mem_singleton.mp here).le

theorem Settled.pass (settled : Settled s) {updateId : ℤ} (fresh : updateId ∉ s.passed)
    (below : updateId < stored s.file) : Settled { s with passed := s.passed ++ [updateId] } := by
  refine ⟨⟨?_,settled.once.2⟩,fun id inside => ?_,settled.last⟩
  · exact List.nodup_append.mpr ⟨settled.once.1,List.pairwise_singleton _ _,fun id inside other here same =>
      fresh (List.mem_singleton.mp here ▸ same ▸ inside)⟩
  · rcases List.mem_append.mp inside with older | here
    · exact settled.below id older
    · exact List.mem_singleton.mp here ▸ below

theorem send_keeps (route : ReplyRoute) (texts : List Utf16) (settled : Settled s) :
    Keeps (send route texts) (fun _ s' => s' = s) s := by
  induction texts with
  | nil => rfl
  | cons text rest ih =>
    rw [send]
    refine holds_then effect_mono (P := fun _ s' => s' = s) (call_keeps settled fun choice _ => ?_) ?_
    · rw [handle]
      cases choice.answer choice.sent with
      | ok sent => rfl
      | error error => exact settled
    · intro ok s' same
      subst same
      rw [holds_bind,holds_reject]
      exact ⟨fun _ => settled,fun _ => ih⟩

theorem save_keeps (n : ℤ) (settled : Settled s) (fresh : Fresh offset s) :
    Keeps (call (.save n)) (fun _ s' => Settled s' ∧ Fresh offset s' ∧ stored s'.file = n) s := by
  refine call_keeps settled fun choice fits => ?_
  rw [handle,Choice.answer]
  cases failed : choice.failure with
  | none =>
    obtain ⟨ahead,safe⟩ := fits failed
    exact ⟨settled.save ahead safe,fresh,stored_some ((stored_nonneg s.file).trans ahead) safe⟩
  | some error => exact settled

/-- Handing on a number that nothing was handed on with, below the offset stored. -/
theorem pass_keeps {op : Op} {updateId : ℤ} {answer : Choice → Except String op.Ans}
    (passes : ∀ choice s, handle choice op s = (answer choice,{ s with passed := s.passed ++ [updateId] }))
    (settled : Settled s) (fresh : Fresh offset s) (new : updateId ∉ s.passed) (below : updateId < stored s.file)
    (seen : updateId ∈ s.seen) : Keeps (call op) (fun _ s' => Settled s' ∧ Fresh offset s') s := by
  refine call_keeps settled fun choice _ => ?_
  rw [passes]
  have after := settled.pass new below
  cases answer choice with
  | ok value =>
    refine ⟨after,fun id inside => ?_⟩
    rcases List.mem_append.mp inside with older | here
    · exact fresh id older
    · exact .inr (List.mem_singleton.mp here ▸ seen)
  | error error => exact after

/-- An update that is received had not been seen, so it had not been handed on. -/
theorem receive_keeps (o : Options) {updateId : ℤ} (update : Update) (settled : Settled s) (fresh : Fresh offset s)
    (through : offset ≤ updateId) :
    Keeps (receive o updateId update) (fun inbound s' => Settled s' ∧ Fresh offset s' ∧ s'.file = s.file ∧
      updateId ∈ s'.seen ∧ (inbound.isSome → updateId ∉ s'.passed)) s := by
  have sees : Keeps (call (.see updateId)) (fun b s' => Settled s' ∧ Fresh offset s' ∧ s'.file = s.file ∧
      updateId ∈ s'.seen ∧ (b = false → updateId ∉ s'.passed)) s := by
    refine call_keeps settled fun choice _ => ⟨⟨settled.once,settled.below,settled.last⟩,?_,rfl,.head _,?_⟩
    · intro id inside
      exact (fresh id inside).imp_right (.tail _)
    · intro unseen inside
      rcases fresh updateId inside with below | seen
      · exact absurd through (not_le.mpr below)
      · exact of_decide_eq_false unseen seen
  refine holds_then effect_mono sees fun b s' ⟨settled,fresh,same,seen,new⟩ => ?_
  cases b with
  | true => exact ⟨settled,fresh,same,seen,fun there => absurd there Bool.false_ne_true⟩
  | false =>
    refine (holds_ofExcept _).mpr ⟨fun inbound _ => ⟨settled,fresh,same,seen,fun _ => new rfl⟩,fun _ _ => settled⟩

theorem handleUpdate_keeps (o : Options) (update : Option Update) (settled : Settled s) (fresh : Fresh offset s) :
    Keeps (handleUpdate o offset update) (fun _ s' => Settled s' ∧ Fresh offset s') s := by
  cases update with
  | none => exact settled
  | some update =>
    rw [handleUpdate]
    cases update.updateId with
    | none => exact ⟨settled,fresh⟩
    | some updateId =>
      dsimp only
      split_ifs with old
      · exact ⟨settled,fresh⟩
      · refine holds_then effect_mono (save_keeps (updateId + 1) settled fresh) fun _ s ⟨settled,fresh,file⟩ => ?_
        refine holds_then effect_mono (receive_keeps o update settled fresh (not_lt.mp old)) ?_
        intro inbound s' ⟨settled,fresh,same,seen,new⟩
        cases inbound with
        | none => exact ⟨settled,fresh⟩
        | some inbound =>
          have below : updateId < stored s'.file := by
            rw [same,file]
            exact Int.lt_succ updateId
          have sends : ∀ (text : Option Utf16) s', Settled s' ∧ Fresh offset s' →
              Keeps (send inbound.replyTo (chunks 4096 (text.getD []))) (fun _ s' => Settled s' ∧ Fresh offset s') s' :=
            fun text s' kept => holds_mono effect_mono _ (send_keeps _ _ kept.1) (fun _ _ same => same ▸ kept)
              fun _ _ settled => settled
          dsimp only
          split_ifs
          · exact holds_then effect_mono
              (pass_keeps (fun choice _ => (rfl : _ = (choice.answer choice.text,_))) settled fresh (new rfl) below seen)
              sends
          · exact holds_then effect_mono
              (pass_keeps (fun choice _ => (rfl : _ = (choice.answer choice.text,_))) settled fresh (new rfl) below seen)
              sends

theorem handleUpdates_keeps (o : Options) (updates : List (Option Update)) (settled : Settled s) (fresh : Fresh offset s) :
    Keeps (handleUpdates o offset updates) (fun _ => Settled) s := by
  induction updates generalizing s with
  | nil => exact settled
  | cons update rest ih =>
    rw [handleUpdates]
    exact holds_then effect_mono (handleUpdate_keeps o update settled fresh) fun _ s kept => ih kept.1 kept.2

theorem pollOnce_keeps (o : Options) (settled : Settled s) : Keeps (pollOnce o) (fun _ => Settled) s := by
  have loads : Keeps (call .load) (fun offset s' => Settled s' ∧ Fresh offset s') s := by
    refine call_keeps settled fun choice fits => ⟨settled,fun id inside => .inl ?_⟩
    have below := settled.below id inside
    split_ifs with readable
    · exact below
    · exact below.trans_le (fits.resolve_left readable).le
  refine holds_then effect_mono loads fun offset s ⟨settled,fresh⟩ => ?_
  have asks : Keeps (call (.getUpdates offset)) (fun _ s' => s' = s) s := by
    refine call_keeps settled fun choice _ => ?_
    rw [handle]
    cases choice.answer choice.response with
    | ok response => rfl
    | error error => exact settled
  refine holds_then effect_mono asks fun r s' same => ?_
  subst same
  cases r.ok with
  | false =>
    by_cases busy : r.status = some 429
    · rw [if_pos rfl,if_pos busy]
      exact call_keeps settled fun _ _ => settled
    · rw [if_pos rfl,if_neg busy]
      exact settled
  | true =>
    rw [if_neg Bool.true_eq_false.mp]
    cases r.body with
    | none => exact settled
    | some body =>
      obtain ⟨ok,result⟩ := body
      cases ok with
      | false => exact settled
      | true =>
        cases result with
        | none => exact settled
        | some result => exact handleUpdates_keeps o result settled fresh

end Invariant

/-- Every poll ends, or is cut off by a restart at one of its effects. -/
theorem lives_once (o : Options) (file : Option ℤ) (polls : List (List Choice))
    (ordered : (pollOnce o).AllCalm handle orderly restart (fun _ => True) (.init file) polls) :
    Once ((pollOnce o).lives handle restart (.init file) polls) := by
  have start : Settled (.init file) := by
    refine ⟨⟨List.nodup_nil,List.pairwise_singleton _ _⟩,fun id inside => ?_,fun offset inside => ?_⟩
    · cases inside
    · exact (List.mem_singleton.mp inside).le
  have restarts : ∀ s, Settled s → True → Settled (restart s) := fun s settled _ =>
    ⟨settled.once,settled.below,settled.last⟩
  exact (lives_keep (fun s settled => pollOnce_keeps o settled) restarts start ordered).once

namespace Sample

def options : Options := ⟨some ["3"],none,false⟩

def update (id : ℤ) : Option Update := some ⟨some id,some ⟨some "hi",some ⟨"3",none⟩,some "2",none,1⟩⟩

/-- Nothing fails, and the interface has the updates of these numbers. -/
def world (ids : List ℤ) : Choice := ⟨none,true,⟨true,some 200,none,some ⟨true,some (ids.map update)⟩⟩,none,true⟩

end Sample

open Sample in
/-- The updates 5 and 3 in this order, a restart, and the update 5 once more. -/
theorem lives_twice :
    ¬Once ((pollOnce options).lives handle restart (.init none)
      [List.replicate 8 (world [5,3]),[],List.replicate 5 (world [5])]) := by
  decide +kernel

open Sample in
theorem lives_once_restart :
    Once ((pollOnce options).lives handle restart (.init none)
      [List.replicate 4 (world [3,5]),List.replicate 8 (world [3,5])]) := by
  apply lives_once
  refine ⟨⟨by decide +kernel,?_⟩,⟨by decide +kernel,?_⟩,trivial⟩ <;> split <;> trivial

end RatifyOs.Gateway.Telegram
