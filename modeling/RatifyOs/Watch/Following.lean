import RatifyOs.Watch.Connection

/-! What the other side of an open socket has been told to send is what the feed follows. -/
namespace RatifyOs.Watch
open Data

/-- Whether the trades of a mint are sent after these commands. -/
def standing (mint : Utf16) (sent : List Command) : Bool :=
  sent.foldl (fun on command => match command with
    | .subscribeNewToken => on
    | .subscribeTokenTrade other => if other = mint then true else on
    | .unsubscribeTokenTrade other => if other = mint then false else on) false

section Standing
variable {mint : Utf16}

@[simp] theorem standing_nil : standing mint [] = false := rfl

@[simp] theorem standing_new (sent : List Command) : standing mint (sent ++ [.subscribeNewToken]) = standing mint sent := by
  rw [standing,List.foldl_append]
  rfl

@[simp] theorem standing_subscribe (sent : List Command) (other : Utf16) :
    standing mint (sent ++ [.subscribeTokenTrade other]) = if other = mint then true else standing mint sent := by
  rw [standing,List.foldl_append]
  rfl

@[simp] theorem standing_unsubscribe (sent : List Command) (other : Utf16) :
    standing mint (sent ++ [.unsubscribeTokenTrade other]) = if other = mint then false else standing mint sent := by
  rw [standing,List.foldl_append]
  rfl

end Standing

/-- The commands ask once for the launches, and for the trades of exactly these mints. -/
structure Asks (sent : List Command) (mints : List Utf16) : Prop where
  launches : sent.count .subscribeNewToken = 1
  trades : ∀ mint, standing mint sent = true ↔ mint ∈ mints

namespace Asks
variable {sent : List Command} {mints mints' : List Utf16} {mint : Utf16}

theorem subscribe (asks : Asks sent mints) (same : ∀ other, other ∈ mints' ↔ other ∈ mints ∨ other = mint) :
    Asks (sent ++ [.subscribeTokenTrade mint]) mints' where
  launches := by simpa [List.count_append] using asks.launches
  trades other := by
    rw [standing_subscribe,same,← asks.trades]
    by_cases here : mint = other
    · simp [here]
    · simp [here,Ne.symm here]

theorem unsubscribe (asks : Asks sent mints) (same : ∀ other, other ∈ mints' ↔ other ∈ mints ∧ other ≠ mint) :
    Asks (sent ++ [.unsubscribeTokenTrade mint]) mints' where
  launches := by simpa [List.count_append] using asks.launches
  trades other := by
    rw [standing_unsubscribe,same,← asks.trades]
    by_cases here : mint = other
    · simp [here]
    · simp [here,Ne.symm here]

end Asks

namespace Watcher
variable {w w' : Watcher} {m : Moment} {g : ℕ}

/-- An open socket has been told what is followed; one that is connecting has been told nothing. -/
structure Told (w : Watcher) : Prop where
  opened : ∀ g, w.ws = some g → (w.sockets g).readyState = .open_ → Asks (w.sockets g).sent w.tokenSubs
  connecting : ∀ g, (w.sockets g).readyState = .connecting → (w.sockets g).sent = []

section Sending

@[simp] theorem tokenSubs_send (w : Watcher) (c : Command) : (w.send c).tokenSubs = w.tokenSubs := by
  obtain ⟨sockets,same⟩ := send_eq w c
  rw [same]

theorem sent_send_of_open (found : w.ws = some g) (opened : (w.sockets g).readyState = .open_) (c : Command) :
    ((w.send c).sockets g).sent = (w.sockets g).sent ++ [c] := by
  unfold send
  rw [found]
  dsimp only
  rw [if_pos opened]
  simp [setSocket]

theorem sent_send_of_not_open {h : ℕ} (other : w.ws ≠ some h ∨ (w.sockets h).readyState ≠ .open_) (c : Command) :
    ((w.send c).sockets h).sent = (w.sockets h).sent := by
  unfold send
  split
  · rfl
  · rename_i g found
    split
    · rename_i opened
      have elsewhere : h ≠ g := by
        rintro rfl
        exact other.elim (fun other => other found) fun other => other opened
      simp [setSocket,elsewhere]
    · rfl

theorem Told.send (told : w.Told) {c : Command} {mints : List Utf16} (v : Watcher) (same : v = { w with tokenSubs := mints })
    (asks : ∀ sent, Asks sent w.tokenSubs → Asks (sent ++ [c]) mints) : (v.send c).Told where
  opened g found opened := by
    have alike := Alike.send v c
    rw [alike.ws,same] at found
    rw [alike.ready,same] at opened
    have before : (v.sockets g).readyState = .open_ := by rw [same]; exact opened
    rw [sent_send_of_open (by rw [same]; exact found) before,tokenSubs_send,same]
    exact asks _ (told.opened g found opened)
  connecting g connecting := by
    rw [(Alike.send v c).ready] at connecting
    rw [sent_send_of_not_open (.inr (by rw [connecting]; decide))]
    rw [same] at connecting ⊢
    exact told.connecting g connecting

theorem mem_tokenSubs_subscribe (w : Watcher) (mint other : Utf16) :
    other ∈ (w.subscribeTokenTrade mint).tokenSubs ↔ other ∈ w.tokenSubs ∨ other = mint := by
  rw [subscribeTokenTrade,tokenSubs_send]
  dsimp only
  split
  · rename_i inside
    exact ⟨.inl,fun found => found.elim id fun same => same ▸ List.contains_iff_mem.mp inside⟩
  · rw [List.mem_append,List.mem_singleton]

theorem mem_tokenSubs_unsubscribe (w : Watcher) (mint other : Utf16) :
    other ∈ (w.unsubscribeTokenTrade mint).tokenSubs ↔ other ∈ w.tokenSubs ∧ other ≠ mint := by
  rw [unsubscribeTokenTrade,tokenSubs_send]
  simp

theorem Told.subscribe (told : w.Told) (mint : Utf16) : (w.subscribeTokenTrade mint).Told := by
  have members := mem_tokenSubs_subscribe w mint
  rw [subscribeTokenTrade,tokenSubs_send] at members
  exact told.send _ rfl fun sent asks => asks.subscribe members

theorem Told.unsubscribe (told : w.Told) (mint : Utf16) : (w.unsubscribeTokenTrade mint).Told := by
  have members := mem_tokenSubs_unsubscribe w mint
  rw [unsubscribeTokenTrade,tokenSubs_send] at members
  exact told.send _ rfl fun sent asks => asks.unsubscribe members

/-- After the replay an open socket has been told of every mint once more. -/
theorem sent_replay (found : w.ws = some g) (opened : (w.sockets g).readyState = .open_) (mints : List Utf16) :
    ((mints.foldl (fun w mint => w.send (.subscribeTokenTrade mint)) w).sockets g).sent =
        (w.sockets g).sent ++ mints.map .subscribeTokenTrade ∧
      (∀ h, h ≠ g → ((mints.foldl (fun w mint => w.send (.subscribeTokenTrade mint)) w).sockets h).sent =
        (w.sockets h).sent) ∧
      (mints.foldl (fun w mint => w.send (.subscribeTokenTrade mint)) w).tokenSubs = w.tokenSubs := by
  induction mints generalizing w with
  | nil => exact ⟨by simp,fun _ _ => rfl,rfl⟩
  | cons mint mints ih =>
    have alike := Alike.send w (.subscribeTokenTrade mint)
    obtain ⟨here,others,subs⟩ := ih (w := w.send (.subscribeTokenTrade mint)) (alike.ws.trans found)
      ((alike.ready g).trans opened)
    rw [List.foldl_cons]
    refine ⟨?_,fun h other => ?_,subs.trans (tokenSubs_send _ _)⟩
    · rw [here,sent_send_of_open found opened,List.map_cons,List.append_assoc,List.singleton_append]
    · have elsewhere : w.ws ≠ some h := fun same => other (Option.some.inj (same.symm.trans found))
      rw [others h other,sent_send_of_not_open (.inl elsewhere)]

theorem asks_replay (mints : List Utf16) :
    Asks (.subscribeNewToken :: mints.map .subscribeTokenTrade) mints := by
  induction mints using List.reverseRecOn with
  | nil => exact ⟨rfl,fun mint => by simp [standing]⟩
  | append_singleton mints mint ih =>
    rw [List.map_append,List.map_singleton,← List.cons_append]
    exact ih.subscribe fun other => by rw [List.mem_append,List.mem_singleton]

end Sending

/-- No socket has become open, and one that has been made has been told nothing. -/
structure Fewer (w w' : Watcher) : Prop where
  tokenSubs : w'.tokenSubs = w.tokenSubs
  opened : ∀ g, w'.ws = some g → (w'.sockets g).readyState = .open_ →
    w.ws = some g ∧ (w.sockets g).readyState = .open_ ∧ (w'.sockets g).sent = (w.sockets g).sent
  connecting : ∀ g, (w'.sockets g).readyState = .connecting →
    (w'.sockets g).sent = [] ∨ (w.sockets g).readyState = .connecting ∧ (w'.sockets g).sent = (w.sockets g).sent

namespace Fewer

theorem told (fewer : Fewer w w') (told : w.Told) : w'.Told where
  opened g found opened := by
    obtain ⟨found,opened,same⟩ := fewer.opened g found opened
    rw [same,fewer.tokenSubs]
    exact told.opened g found opened
  connecting g connecting := by
    rcases fewer.connecting g connecting with none_ | ⟨before,same⟩
    · exact none_
    · exact same.trans (told.connecting g before)

theorem trans {w'' : Watcher} (first : Fewer w w') (second : Fewer w' w'') : Fewer w w'' where
  tokenSubs := second.tokenSubs.trans first.tokenSubs
  opened g found opened := by
    obtain ⟨found,opened,same⟩ := second.opened g found opened
    obtain ⟨found,opened,same'⟩ := first.opened g found opened
    exact ⟨found,opened,same.trans same'⟩
  connecting g connecting := by
    rcases second.connecting g connecting with none_ | ⟨before,same⟩
    · exact .inl none_
    · rcases first.connecting g before with none_ | ⟨before,same'⟩
      · exact .inl (same.trans none_)
      · exact .inr ⟨before,same.trans same'⟩

theorem of_sockets (sockets : w'.sockets = w.sockets) (ws : ∀ g, w'.ws = some g → w.ws = some g)
    (subs : w'.tokenSubs = w.tokenSubs) : Fewer w w' where
  tokenSubs := subs
  opened g found opened := by
    rw [sockets] at opened ⊢
    exact ⟨ws g found,opened,rfl⟩
  connecting g connecting := by
    rw [sockets] at connecting ⊢
    exact .inr ⟨connecting,rfl⟩

theorem setReady (w : Watcher) (g : ℕ) {r : ReadyState} (opened : r ≠ .open_) (connecting : r ≠ .connecting) :
    Fewer w (w.setReady g r) where
  tokenSubs := rfl
  opened h found now := by
    rw [ready_setReady] at now
    by_cases here : h = g
    · exact absurd ((if_pos here).symm.trans now) opened
    · exact ⟨found,(if_neg here).symm.trans now,sent_setReady w g r h⟩
  connecting h now := by
    rw [ready_setReady] at now
    by_cases here : h = g
    · exact absurd ((if_pos here).symm.trans now) connecting
    · exact .inr ⟨(if_neg here).symm.trans now,sent_setReady w g r h⟩

theorem closeSocket (w : Watcher) (g : ℕ) : Fewer w (w.closeSocket g) := by
  unfold Watcher.closeSocket
  split
  · exact of_sockets rfl (fun _ found => found) rfl
  · exact setReady w g (by decide) (by decide)

theorem schedule (w : Watcher) (m : Moment) : Fewer w (w.scheduleReconnect m) := by
  unfold scheduleReconnect
  split <;> exact of_sockets rfl (fun _ found => found) rfl

theorem connect (w : Watcher) (m : Moment) : Fewer w (w.connect m) := by
  unfold Watcher.connect
  split
  · exact of_sockets rfl (fun _ found => found) rfl
  · dsimp only
    split
    · have ready : ∀ h, Function.update w.sockets (w.generation + 1) ⟨.connecting,[]⟩ h =
          if h = w.generation + 1 then ⟨.connecting,[]⟩ else w.sockets h := fun h => by
        by_cases same : h = w.generation + 1 <;> simp [same]
      constructor
      · rfl
      · intro g found opened
        cases Option.some.inj found
        have now := congrArg FeedSocket.readyState ((ready (w.generation + 1)).trans (if_pos rfl))
        exact absurd (now.symm.trans opened) (by decide)
      · intro g now
        by_cases same : g = w.generation + 1
        · exact .inl (congrArg FeedSocket.sent ((ready g).trans (if_pos same)))
        · have before := (ready g).trans (if_neg same)
          exact .inr ⟨(congrArg FeedSocket.readyState before).symm.trans now,congrArg FeedSocket.sent before⟩
    · have before : Fewer w { w with reconnectTimer := none, generation := w.generation + 1 } :=
        of_sockets rfl (fun _ found => found) rfl
      exact before.trans (schedule _ m)

theorem stop (w : Watcher) : Fewer w w.stop := by
  have before : Fewer w { w with
      stopped := true, reconnectTimer := none, staleTimer := false, connected := false, ws := none
      generation := w.generation + 1 } := of_sockets rfl (fun _ found => by cases found) rfl
  unfold Watcher.stop
  dsimp only
  split
  · exact before
  · exact before.trans (closeSocket _ _)

theorem onClose (w : Watcher) (m : Moment) (g : ℕ) : Fewer w (w.onClose m g) := by
  have before : Fewer w { w with
      connected := false, staleTimer := false, ws := if w.ws = some g then none else w.ws } := by
    refine of_sockets rfl (fun h found => ?_) rfl
    dsimp only at found
    split at found
    · cases found
    · exact found
  exact before.trans (schedule _ m)

theorem onReconnectTimer (w : Watcher) (m : Moment) : Fewer w (w.onReconnectTimer m) := by
  have before : Fewer w { w with reconnectTimer := none } := of_sockets rfl (fun _ found => found) rfl
  exact before.trans (connect _ m)

theorem onStaleTimer (w : Watcher) (m : Moment) : Fewer w (w.onStaleTimer m) := by
  unfold Watcher.onStaleTimer
  split
  · exact of_sockets rfl (fun _ found => found) rfl
  · split
    · dsimp only
      split
      · have quiet : Fewer w { w with staleTimer := false, connected := false } :=
          of_sockets rfl (fun _ found => found) rfl
        exact quiet.trans (schedule _ m)
      · have quiet : Fewer w { w with
            staleTimer := false, connected := false, ws := none, generation := w.generation + 1 } :=
          of_sockets rfl (fun _ found => by cases found) rfl
        exact (quiet.trans (closeSocket _ _)).trans (schedule _ m)
    · exact of_sockets rfl (fun _ found => found) rfl

end Fewer

/-- A socket that opens is told of the launches and of everything followed. -/
theorem Told.onOpen (told : w.Told) (found : w.ws = some g) (connecting : (w.sockets g).readyState = .connecting)
    (m : Moment) : ((w.setReady g .open_).onOpen m).Told ∧
      ((w.setReady g .open_).onOpen m).tokenSubs = w.tokenSubs := by
  obtain ⟨v,same⟩ : ∃ v : Watcher, v = { w.setReady g .open_ with
    attempt := 0, connected := true, lastMessageAt := m.now, staleTimer := true } := ⟨_,rfl⟩
  have ws : v.ws = some g := by rw [same]; exact found
  have opened : (v.sockets g).readyState = .open_ := by
    rw [same]
    exact (ready_setReady w g .open_ g).trans (if_pos rfl)
  have none_ : (v.sockets g).sent = [] := by
    rw [same]
    exact (sent_setReady w g .open_ g).trans (told.connecting g connecting)
  have subs : v.tokenSubs = w.tokenSubs := by rw [same]; rfl
  have alike := Alike.send v .subscribeNewToken
  obtain ⟨here,others,kept⟩ := sent_replay (alike.ws.trans ws) ((alike.ready g).trans opened) w.tokenSubs
  have whole := alike.trans (Alike.replay w.tokenSubs (v.send .subscribeNewToken))
  have final : (w.setReady g .open_).onOpen m =
      w.tokenSubs.foldl (fun w mint => w.send (.subscribeTokenTrade mint)) (v.send .subscribeNewToken) := by
    rw [Watcher.onOpen,← same]
    rw [tokenSubs_send,subs]
  rw [sent_send_of_open ws opened,none_,List.nil_append,List.singleton_append] at here
  rw [tokenSubs_send,subs] at kept
  rw [final]
  refine ⟨⟨fun h current _ => ?_,fun h now => ?_⟩,kept⟩
  · rw [whole.ws,ws] at current
    cases current
    rw [here,kept]
    exact asks_replay w.tokenSubs
  · have other : h ≠ g := by
      rintro rfl
      rw [whole.ready,opened] at now
      cases now
    have elsewhere : v.ws ≠ some h := fun current => other (Option.some.inj (current.symm.trans ws))
    rw [others h other,sent_send_of_not_open (.inl elsewhere)]
    rw [whole.ready,same] at now
    rw [same]
    refine (sent_setReady w g .open_ h).trans (told.connecting h ?_)
    exact ((ready_setReady w g .open_ h).trans (if_neg other)).symm.trans now

end Watcher

namespace SignalsFeed
variable {s : SignalsFeed}

/-- What is subscribed is what was asked for and the launches that are still followed. -/
structure Following (s : SignalsFeed) : Prop where
  told : s.watcher.Told
  members : ∀ mint, mint ∈ s.watcher.tokenSubs ↔ mint ∈ s.pinned ∨ mint ∈ s.autoFollowed
  distinct : s.autoFollowed.Nodup
  room : ∀ n ∈ capacity s.maxAutoFollow, s.autoFollowed.length ≤ n

theorem evict_spec (max : Double) (pinned : List Utf16) {followed : List Utf16} {w : Watcher} (told : w.Told)
    (members : ∀ mint, mint ∈ w.tokenSubs ↔ mint ∈ pinned ∨ mint ∈ followed) (distinct : followed.Nodup) :
    (evict max pinned followed w).2.Told ∧ (evict max pinned followed w).1 = shiftTo max followed ∧
      ∀ mint, mint ∈ (evict max pinned followed w).2.tokenSubs ↔ mint ∈ pinned ∨ mint ∈ shiftTo max followed := by
  induction followed generalizing w with
  | nil => exact ⟨told,rfl,members⟩
  | cons oldest rest ih =>
    unfold evict shiftTo
    split
    · obtain ⟨fresh,distinct⟩ := List.nodup_cons.mp distinct
      split
      · rename_i pinned_
        have pinned_ := List.contains_iff_mem.mp pinned_
        refine ih told (fun mint => ?_) distinct
        rw [members,List.mem_cons]
        exact ⟨fun found => found.elim .inl fun found => found.elim (fun same => .inl (same ▸ pinned_)) .inr,
          Or.imp_right .inr⟩
      · rename_i loose
        refine ih (told.unsubscribe oldest) (fun mint => ?_) distinct
        rw [Watcher.mem_tokenSubs_unsubscribe,members,List.mem_cons]
        constructor
        · rintro ⟨pinned_ | same | inside,other⟩
          · exact .inl pinned_
          · exact absurd same other
          · exact .inr inside
        · rintro (pinned_ | inside)
          · exact ⟨.inl pinned_,fun same => loose (List.contains_iff_mem.mpr (same ▸ pinned_))⟩
          · exact ⟨.inr (.inr inside),fun same => fresh (same ▸ inside)⟩
    · exact ⟨told,rfl,members⟩

theorem Following.autoFollow (following : s.Following) (mint : Utf16) : (s.autoFollow mint).Following := by
  unfold SignalsFeed.autoFollow
  split
  · exact following
  · split
    · exact following
    · rename_i fresh
      rw [not_or,List.contains_iff_mem,List.contains_iff_mem] at fresh
      have distinct : (s.autoFollowed ++ [mint]).Nodup := by
        rw [List.nodup_append]
        refine ⟨following.distinct,List.nodup_singleton mint,fun a inside b single same => fresh.2 ?_⟩
        rw [List.mem_singleton] at single
        exact single ▸ same ▸ inside
      have members : ∀ other, other ∈ (s.watcher.subscribeTokenTrade mint).tokenSubs ↔
          other ∈ s.pinned ∨ other ∈ s.autoFollowed ++ [mint] := fun other => by
        rw [Watcher.mem_tokenSubs_subscribe,following.members,List.mem_append,List.mem_singleton,or_assoc]
      obtain ⟨told,same,members⟩ := evict_spec s.maxAutoFollow s.pinned (following.told.subscribe mint) members distinct
      rw [Latest.shiftTo_eq] at same members
      refine ⟨told,fun other => ?_,?_,fun n bound => ?_⟩
      · rw [members other,← same]
      · dsimp only
        rw [same]
        exact distinct.sublist (Latest.latest_suffix _ _).sublist
      · dsimp only
        rw [same,Option.mem_def.mp bound]
        exact Latest.length_latest_le _

theorem Following.of_watcher (following : s.Following) {w : Watcher} (fewer : s.watcher.Fewer w) (started : Bool) :
    { s with watcher := w, started }.Following :=
  ⟨fewer.told following.told,fun mint => by
    dsimp only
    rw [fewer.tokenSubs,following.members],following.distinct,following.room⟩

theorem following_make (options : SignalsFeedOptions) : (make options).Following where
  told := ⟨fun g found => (nomatch found),fun g connecting => rfl⟩
  members mint := by simp [make,Watcher.make]
  distinct := List.nodup_nil
  room n _ := Nat.zero_le n

theorem Following.step (following : s.Following) (steady : s.Steady) (event : Moment × Event) :
    (s.step event).Following := by
  obtain ⟨m,event⟩ := event
  have same : ∀ w : Watcher, s.watcher.Fewer w → { s with watcher := w }.Following := fun w fewer =>
    following.of_watcher fewer s.started
  cases event with
  | start =>
    rw [SignalsFeed.step,start]
    split
    · exact following
    · refine following.of_watcher ?_ true
      have awake : s.watcher.Fewer { s.watcher with stopped := false } := .of_sockets rfl (fun _ found => found) rfl
      unfold Watcher.start
      dsimp only
      split
      · exact awake
      · exact awake.trans (.connect _ m)
  | stop =>
    rw [SignalsFeed.step,stop]
    split
    · exact following.of_watcher (.stop _) false
    · exact following
  | watch mint =>
    rw [SignalsFeed.step,watch]
    split
    · exact following
    · refine ⟨following.told.subscribe mint,fun other => ?_,following.distinct,following.room⟩
      dsimp only
      rw [Watcher.mem_tokenSubs_subscribe,following.members,List.mem_append,List.mem_singleton]
      exact or_right_comm
  | opened g =>
    rw [SignalsFeed.step]
    by_cases connecting : (s.watcher.sockets g).readyState = .connecting
    · have found := steady.sound.live g (.inl connecting)
      obtain ⟨_,running⟩ := steady.of_ws found
      have mine := (Watcher.Sound.opened (m := m) steady.sound connecting fun _ => running).1
      obtain ⟨told,subs⟩ := following.told.onOpen found connecting m
      rw [if_pos connecting]
      dsimp only
      rw [if_pos mine]
      refine ⟨told,fun mint => ?_,following.distinct,following.room⟩
      dsimp only
      rw [subs,following.members]
    · rw [if_neg connecting]
      exact following
  | message g data =>
    rw [SignalsFeed.step]
    split
    · have heard := same { s.watcher with lastMessageAt := m.now } (.of_sockets rfl (fun _ found => found) rfl)
      unfold onMessage
      dsimp only
      split
      · exact heard
      · exact ⟨heard.told,heard.members,heard.distinct,heard.room⟩
      · exact heard.autoFollow _
    · exact following
  | closing g =>
    rw [SignalsFeed.step]
    split
    · exact same _ (.setReady _ g (by decide) (by decide))
    · exact following
  | closed g =>
    rw [SignalsFeed.step]
    split
    · exact following
    · have closed : s.watcher.Fewer (s.watcher.setReady g .closed) := .setReady _ g (by decide) (by decide)
      dsimp only
      split
      · exact same _ (closed.trans (.onClose _ m g))
      · exact same _ closed
  | reconnect =>
    rw [SignalsFeed.step]
    split
    · exact same _ (.onReconnectTimer _ m)
    · exact following
  | watchdog =>
    rw [SignalsFeed.step]
    split
    · exact same _ (.onStaleTimer _ m)
    · exact following

section Pinned

theorem pinned_autoFollow (s : SignalsFeed) (mint : Utf16) :
    (s.autoFollow mint).pinned = s.pinned ∧ (s.autoFollow mint).maxAutoFollow = s.maxAutoFollow := by
  unfold autoFollow
  split
  · exact ⟨rfl,rfl⟩
  · split <;> exact ⟨rfl,rfl⟩

/-- Only a caller pins a mint, and nothing takes one off. -/
theorem pinned_step (s : SignalsFeed) (event : Moment × Event) :
    (∀ mint, mint ∈ (s.step event).pinned ↔ mint ∈ s.pinned ∨ event.2 = .watch mint) ∧
      (s.step event).maxAutoFollow = s.maxAutoFollow := by
  have none_ : ∀ {s' : SignalsFeed}, s'.pinned = s.pinned ∧ s'.maxAutoFollow = s.maxAutoFollow →
      (∀ mint, event.2 ≠ .watch mint) → (∀ mint, mint ∈ s'.pinned ↔ mint ∈ s.pinned ∨ event.2 = .watch mint) ∧
      s'.maxAutoFollow = s.maxAutoFollow := fun same other =>
    ⟨fun mint => by rw [same.1]; exact (or_iff_left (other mint)).symm,same.2⟩
  obtain ⟨m,event⟩ := event
  cases event with
  | start => exact none_ (by rw [SignalsFeed.step,start]; split <;> exact ⟨rfl,rfl⟩) (fun _ same => by cases same)
  | stop => exact none_ (by rw [SignalsFeed.step,stop]; split <;> exact ⟨rfl,rfl⟩) (fun _ same => by cases same)
  | watch mint =>
    rw [SignalsFeed.step,watch]
    split
    · rename_i inside
      refine ⟨fun other => ⟨.inl,fun found => found.elim id fun same => ?_⟩,rfl⟩
      cases same
      exact List.contains_iff_mem.mp inside
    · refine ⟨fun other => ?_,rfl⟩
      dsimp only
      rw [List.mem_append,List.mem_singleton,Event.watch.injEq,eq_comm (a := other)]
  | opened g => exact none_ (by rw [SignalsFeed.step]; split <;> exact ⟨rfl,rfl⟩) (fun _ same => by cases same)
  | message g data =>
    refine none_ ?_ (fun _ same => by cases same)
    rw [SignalsFeed.step]
    split
    · unfold onMessage
      dsimp only
      split
      · exact ⟨rfl,rfl⟩
      · exact ⟨rfl,rfl⟩
      · exact pinned_autoFollow _ _
    · exact ⟨rfl,rfl⟩
  | closing g => exact none_ (by rw [SignalsFeed.step]; split <;> exact ⟨rfl,rfl⟩) (fun _ same => by cases same)
  | closed g => exact none_ (by rw [SignalsFeed.step]; split <;> exact ⟨rfl,rfl⟩) (fun _ same => by cases same)
  | reconnect => exact none_ (by rw [SignalsFeed.step]; split <;> exact ⟨rfl,rfl⟩) (fun _ same => by cases same)
  | watchdog => exact none_ (by rw [SignalsFeed.step]; split <;> exact ⟨rfl,rfl⟩) (fun _ same => by cases same)

theorem pinned_after (options : SignalsFeedOptions) (events : List (Moment × Event)) :
    (∀ mint, mint ∈ (after options events).pinned ↔ ∃ m, (m,.watch mint) ∈ events) ∧
      (after options events).maxAutoFollow = (make options).maxAutoFollow := by
  induction events using List.reverseRecOn with
  | nil => exact ⟨fun mint => by simp [after,Run.run,make],rfl⟩
  | append_singleton events event ih =>
    obtain ⟨members,same⟩ := ih
    obtain ⟨one,kept⟩ := pinned_step (after options events) event
    have last : after options (events ++ [event]) = (after options events).step event := Run.run_append _ _ _
    rw [last]
    refine ⟨fun mint => ?_,kept.trans same⟩
    rw [one,members]
    obtain ⟨m,event⟩ := event
    simp only [List.mem_append,List.mem_singleton,Prod.mk.injEq,exists_or,exists_eq_left]
    simp [eq_comm]

end Pinned

theorem following_after (options : SignalsFeedOptions) (events : List (Moment × Event)) :
    (after options events).Following :=
  (Run.invariant (I := fun s : SignalsFeed => s.Steady ∧ s.Following)
    (fun _ event _ both => ⟨both.1.step event,both.2.step both.1 event⟩) ⟨steady_make options,following_make options⟩
    (Run.Meets.of_forall (fun _ _ => trivial) _)).2

/-- Through every drop and reconnect, what an open socket has been told amounts to the launches and
the trades of exactly the mints subscribed. These are all the mints ever asked for and the launches
that are followed, of which there are never two of one mint, nor more than the budget. -/
theorem follows_exactly (options : SignalsFeedOptions) (events : List (Moment × Event)) :
    let s := after options events
    (∀ g, s.watcher.ws = some g → (s.watcher.sockets g).readyState = .open_ →
      Asks (s.watcher.sockets g).sent s.watcher.tokenSubs) ∧
    (∀ mint, mint ∈ s.watcher.tokenSubs ↔ (∃ m, (m,.watch mint) ∈ events) ∨ mint ∈ s.autoFollowed) ∧
    s.autoFollowed.Nodup ∧
    ∀ n ∈ capacity (.max 0 (options.maxAutoFollow.getD 64)), s.autoFollowed.length ≤ n := by
  intro s
  have following : s.Following := following_after options events
  obtain ⟨members,same⟩ := pinned_after options events
  refine ⟨following.told.opened,fun mint => ?_,following.distinct,fun n bound => following.room n ?_⟩
  · rw [following.members,members]
  · rw [same]
    exact bound

end SignalsFeed

end RatifyOs.Watch
