import RatifyOs.Watch.Watcher

/-! What holds of the connection of the feed and of the mints followed on it, whatever order the
events of the sockets, the timers and the callers come in. -/
namespace RatifyOs.Watch
open Data

namespace Watcher
variable {w w' : Watcher} {m : Moment} {g : ℕ}

section Simple

@[simp] theorem ready_setReady (w : Watcher) (g : ℕ) (r : ReadyState) (h : ℕ) :
    ((w.setReady g r).sockets h).readyState = if h = g then r else (w.sockets h).readyState := by
  by_cases same : h = g
  · subst same
    simp [setReady,setSocket]
  · simp [setReady,setSocket,same]

@[simp] theorem sent_setReady (w : Watcher) (g : ℕ) (r : ReadyState) (h : ℕ) :
    ((w.setReady g r).sockets h).sent = (w.sockets h).sent := by
  by_cases same : h = g
  · subst same
    simp [setReady,setSocket]
  · simp [setReady,setSocket,same]

theorem ready_send (w : Watcher) (c : Command) (h : ℕ) :
    ((w.send c).sockets h).readyState = (w.sockets h).readyState := by
  unfold send
  cases w.ws with
  | none => rfl
  | some g =>
    dsimp only
    by_cases same : h = g
    · subst same
      split <;> simp [setSocket]
    · split <;> simp [setSocket,same]

theorem send_eq (w : Watcher) (c : Command) : ∃ sockets, w.send c = { w with sockets } := by
  unfold send
  split
  · exact ⟨w.sockets,rfl⟩
  · split
    · exact ⟨_,rfl⟩
    · exact ⟨w.sockets,rfl⟩

end Simple

/-- The two differ only in what was sent, what is followed and when something was last heard. -/
structure Alike (w w' : Watcher) : Prop where
  ws : w'.ws = w.ws
  generation : w'.generation = w.generation
  stopped : w'.stopped = w.stopped
  reconnectTimer : w'.reconnectTimer = w.reconnectTimer
  staleTimer : w'.staleTimer = w.staleTimer
  connected : w'.connected = w.connected
  ready : ∀ h, (w'.sockets h).readyState = (w.sockets h).readyState

namespace Alike

theorem refl (w : Watcher) : Alike w w := ⟨rfl,rfl,rfl,rfl,rfl,rfl,fun _ => rfl⟩

theorem trans {w'' : Watcher} (first : Alike w w') (second : Alike w' w'') : Alike w w'' :=
  ⟨second.ws.trans first.ws,second.generation.trans first.generation,second.stopped.trans first.stopped,
    second.reconnectTimer.trans first.reconnectTimer,second.staleTimer.trans first.staleTimer,
    second.connected.trans first.connected,fun h => (second.ready h).trans (first.ready h)⟩

theorem send (w : Watcher) (c : Command) : Alike w (w.send c) := by
  obtain ⟨sockets,sent⟩ := send_eq w c
  exact ⟨by rw [sent],by rw [sent],by rw [sent],by rw [sent],by rw [sent],by rw [sent],ready_send w c⟩

theorem subscribe (w : Watcher) (mint : Utf16) : Alike w (w.subscribeTokenTrade mint) := by
  have followed : Alike w { w with tokenSubs := if w.tokenSubs.contains mint then w.tokenSubs else w.tokenSubs ++ [mint] } :=
    ⟨rfl,rfl,rfl,rfl,rfl,rfl,fun _ => rfl⟩
  exact followed.trans (send _ _)

theorem unsubscribe (w : Watcher) (mint : Utf16) : Alike w (w.unsubscribeTokenTrade mint) := by
  have left : Alike w { w with tokenSubs := w.tokenSubs.filter (· ≠ mint) } :=
    ⟨rfl,rfl,rfl,rfl,rfl,rfl,fun _ => rfl⟩
  exact left.trans (send _ _)

theorem replay (mints : List Utf16) (w : Watcher) :
    Alike w (mints.foldl (fun w mint => w.send (.subscribeTokenTrade mint)) w) := by
  induction mints generalizing w with
  | nil => exact refl w
  | cons mint mints ih => exact (send w _).trans (ih _)

theorem evict (max : Double) (pinned followed : List Utf16) (w : Watcher) :
    Alike w (SignalsFeed.evict max pinned followed w).2 := by
  induction followed generalizing w with
  | nil => exact refl w
  | cons mint rest ih =>
    unfold SignalsFeed.evict
    split
    · split
      · exact ih w
      · exact (unsubscribe w mint).trans (ih _)
    · exact refl w

end Alike

def Live (w : Watcher) (g : ℕ) : Prop :=
  (w.sockets g).readyState = .connecting ∨ (w.sockets g).readyState = .open_

/-- At most one socket is connecting or open, the current one; a reconnect is pending only without
a current socket, and the watchdog runs exactly while there is one that has opened. -/
structure Sound (w : Watcher) : Prop where
  current : ∀ g, w.ws = some g → g = w.generation ∧ (w.sockets g).readyState ≠ .closed
  live : ∀ g, (w.sockets g).readyState = .connecting ∨ (w.sockets g).readyState = .open_ → w.ws = some g
  waiting : ∀ d, w.reconnectTimer = some d → w.ws = none ∧ 500 ≤ d ∧ d < 30000
  watched : w.staleTimer = w.connected
  connected : w.connected = true ↔ ∃ g, w.ws = some g ∧ (w.sockets g).readyState ≠ .connecting
  made : ∀ g, (w.sockets g).readyState ≠ .closed → g < w.generation ∨ w.ws = some g

/-- There is a current socket, or one will be asked for. -/
def Going (w : Watcher) : Prop := w.ws.isSome ∨ w.reconnectTimer.isSome

theorem Alike.sound (alike : Alike w w') (sound : w.Sound) : w'.Sound where
  current g found := by
    rw [alike.ws] at found
    rw [alike.generation,alike.ready]
    exact sound.current g found
  live g := by
    rw [alike.ready,alike.ws]
    exact sound.live g
  waiting d := by
    rw [alike.reconnectTimer,alike.ws]
    exact sound.waiting d
  watched := by rw [alike.staleTimer,alike.connected,sound.watched]
  connected := by
    rw [alike.connected,alike.ws,sound.connected]
    simp only [alike.ready]
  made g := by
    rw [alike.ready,alike.generation,alike.ws]
    exact sound.made g

theorem Alike.going (alike : Alike w w') : w'.Going ↔ w.Going := by rw [Going,Going,alike.ws,alike.reconnectTimer]

section Backoff

theorem backoff_bounds (attempt : ℕ) {random : ℚ} (unit : 0 ≤ random ∧ random < 1) :
    500 ≤ backoff attempt random ∧ backoff attempt random < 30000 := by
  obtain ⟨nonneg,below⟩ := unit
  unfold backoff
  obtain ⟨base,same⟩ : ∃ base : ℕ, base = min MAX_BACKOFF_MS (1000 * 2 ^ attempt) := ⟨_,rfl⟩
  have power : 1 ≤ 2 ^ attempt := Nat.one_le_two_pow
  have low : (1000 : ℚ) ≤ base := by
    have : 1000 ≤ base := by rw [same,MAX_BACKOFF_MS]; omega
    exact_mod_cast this
  have high : (base : ℚ) ≤ 30000 := by
    have : base ≤ 30000 := same ▸ Nat.min_le_left _ _
    exact_mod_cast this
  rw [← same]
  dsimp only
  constructor
  · nlinarith [mul_nonneg nonneg (show (0 : ℚ) ≤ base / 2 by linarith)]
  · nlinarith [mul_lt_mul_of_pos_right below (show (0 : ℚ) < base / 2 by linarith)]

theorem Sound.schedule (sound : w.Sound) (gone : w.ws = none) (m : Moment) : (w.scheduleReconnect m).Sound := by
  unfold scheduleReconnect
  split
  · exact sound
  · exact {
      current := sound.current
      live := sound.live
      waiting := fun d found => ⟨gone,Option.some.inj found ▸ backoff_bounds w.attempt m.unit⟩
      watched := sound.watched
      connected := sound.connected
      made := sound.made }

theorem going_schedule (running : w.stopped = false) (m : Moment) :
    (w.scheduleReconnect m).stopped = false ∧ (w.scheduleReconnect m).Going := by
  unfold scheduleReconnect
  by_cases pending : w.reconnectTimer.isSome = true
  · rw [if_pos (.inr pending)]
    exact ⟨running,.inr pending⟩
  · rw [if_neg (by simp [running,pending])]
    exact ⟨running,.inr rfl⟩

end Backoff

section Steps

theorem Sound.connect (sound : w.Sound) (gone : w.ws = none) (m : Moment) : (w.connect m).Sound := by
  have off : w.connected = false := by
    rw [← Bool.not_eq_true,sound.connected]
    rintro ⟨g,found,_⟩
    simp [gone] at found
  have dead : ∀ g, ¬((w.sockets g).readyState = .connecting ∨ (w.sockets g).readyState = .open_) := fun g alive => by
    simpa [gone] using sound.live g alive
  have older : ∀ g, (w.sockets g).readyState ≠ .closed → g < w.generation + 1 := fun g there => by
    rcases sound.made g there with before | found
    · exact Nat.lt_succ_of_lt before
    · exact absurd (gone.symm.trans found) (by simp)
  unfold Watcher.connect
  split
  · exact sound
  · dsimp only
    split
    · have ready : ∀ h, (Function.update w.sockets (w.generation + 1) ⟨.connecting,[]⟩ h).readyState =
          if h = w.generation + 1 then .connecting else (w.sockets h).readyState := fun h => by
        by_cases same : h = w.generation + 1 <;> simp [same]
      constructor
      · intro g found
        cases Option.some.inj found
        exact ⟨rfl,fun closed => by simpa using (ready _).symm.trans closed⟩
      · intro g alive
        by_cases same : g = w.generation + 1
        · rw [same]
        · have old := (ready g).trans (if_neg same)
          exact absurd (alive.imp old.symm.trans old.symm.trans) (dead g)
      · intro d found
        cases found
      · exact sound.watched
      · constructor
        · intro on
          exact absurd (off.symm.trans on) Bool.false_ne_true
        · rintro ⟨g,found,later⟩
          cases Option.some.inj found
          exact absurd ((ready _).trans (if_pos rfl)) later
      · intro g there
        by_cases same : g = w.generation + 1
        · rw [same]
          exact .inr rfl
        · exact .inl (older g fun closed => there (((ready g).trans (if_neg same)).trans closed))
    · have before : Sound { w with reconnectTimer := none, generation := w.generation + 1 } := {
        current := fun g found => by simp [gone] at found
        live := sound.live
        waiting := fun d found => by cases found
        watched := sound.watched
        connected := sound.connected
        made := fun g there => .inl (older g there) }
      exact before.schedule gone m

theorem going_connect (running : w.stopped = false) (m : Moment) :
    (w.connect m).stopped = false ∧ (w.connect m).Going := by
  unfold Watcher.connect
  rw [if_neg (by simp [running])]
  dsimp only
  split
  · exact ⟨running,.inl rfl⟩
  · have before : { w with reconnectTimer := none, generation := w.generation + 1 }.stopped = false := running
    exact going_schedule before m

theorem ready_closeSocket (w : Watcher) (g h : ℕ) : ((w.closeSocket g).sockets h).readyState =
    if h = g ∧ (w.sockets g).readyState ≠ .closed then .closing else (w.sockets h).readyState := by
  unfold closeSocket
  by_cases closed : (w.sockets g).readyState = .closed
  · rw [if_pos closed,if_neg (by simp [closed])]
  · rw [if_neg closed,ready_setReady]
    by_cases same : h = g <;> simp [same,closed]

/-- The current socket given up: it is closed, and the generation moves on. -/
theorem Sound.dropped (sound : w.Sound) (stopped : Bool) {reconnectTimer : Option ℚ}
    (bounds : ∀ d, reconnectTimer = some d → 500 ≤ d ∧ d < 30000) (found : w.ws = some g) :
    ({ w with
      stopped, reconnectTimer, staleTimer := false, connected := false, ws := none
      generation := w.generation + 1 }.closeSocket g).Sound := by
  have fields : ∀ v : Watcher, (v.closeSocket g).ws = v.ws ∧ (v.closeSocket g).reconnectTimer = v.reconnectTimer ∧
      (v.closeSocket g).staleTimer = v.staleTimer ∧ (v.closeSocket g).connected = v.connected ∧
      (v.closeSocket g).generation = v.generation := fun v => by
    unfold closeSocket
    split <;> exact ⟨rfl,rfl,rfl,rfl,rfl⟩
  constructor
  · intro h kept
    rw [(fields _).1] at kept
    cases kept
  · intro h alive
    rw [ready_closeSocket] at alive
    dsimp only at alive
    by_cases here : h = g ∧ (w.sockets g).readyState ≠ .closed
    · simp [here] at alive
    · rw [if_neg here] at alive
      have same := (sound.live h alive).symm.trans found
      exact absurd ⟨Option.some.inj same,(sound.current g found).2⟩ here
  · intro d pending
    rw [(fields _).2.1] at pending
    exact ⟨(fields _).1,bounds d pending⟩
  · rw [(fields _).2.2.1,(fields _).2.2.2.1]
  · rw [(fields _).2.2.2.1,(fields _).1]
    simp
  · intro h there
    rw [ready_closeSocket] at there
    dsimp only at there
    rw [(fields _).2.2.2.2]
    refine .inl (Nat.lt_succ_iff.mpr ?_)
    by_cases here : h = g
    · exact (here.trans (sound.current g found).1).le
    · rw [if_neg fun both => here both.1] at there
      rcases sound.made h there with before | found'
      · exact before.le
      · exact ((sound.current h found').1).le

theorem Sound.stop (sound : w.Sound) : w.stop.Sound ∧ w.stop.ws = none ∧ w.stop.reconnectTimer = none := by
  unfold Watcher.stop
  dsimp only
  cases found : w.ws with
  | none =>
    dsimp only
    refine ⟨?_,rfl,rfl⟩
    exact {
      current := fun g kept => by cases kept
      live := fun g alive => found.symm.trans (sound.live g alive)
      waiting := fun d pending => by cases pending
      watched := rfl
      connected := by simp
      made := fun g there => by
        rcases sound.made g there with before | found'
        · exact .inl (Nat.lt_succ_of_lt before)
        · exact absurd (found.symm.trans found') (by simp) }
  | some g =>
    refine ⟨sound.dropped true (fun d pending => by cases pending) found,?_⟩
    unfold closeSocket
    dsimp only
    split <;> exact ⟨rfl,rfl⟩

/-- A socket that opens is the current one, and it is its handler's. -/
theorem Sound.opened (sound : w.Sound) (connecting : (w.sockets g).readyState = .connecting)
    (running : w.ws.isSome → w.stopped = false) :
    (w.setReady g .open_).Mine g ∧ ((w.setReady g .open_).onOpen m).Sound ∧ ((w.setReady g .open_).onOpen m).ws = some g ∧
      ((w.setReady g .open_).onOpen m).stopped = w.stopped := by
  have found := sound.live g (.inl connecting)
  have mine : (w.setReady g .open_).Mine g := ⟨(sound.current g found).1,running (by rw [found]; rfl)⟩
  obtain ⟨v,same⟩ : ∃ v : Watcher, v = { w.setReady g .open_ with
    attempt := 0, connected := true, lastMessageAt := m.now, staleTimer := true } := ⟨_,rfl⟩
  have ready : ∀ h, (v.sockets h).readyState = if h = g then .open_ else (w.sockets h).readyState := fun h => by
    rw [same]
    exact ready_setReady w g .open_ h
  have ws : v.ws = some g := by rw [same]; exact found
  have before : v.Sound := {
    current := fun h kept => by
      rw [ws] at kept
      cases kept
      refine ⟨by rw [same]; exact (sound.current g found).1,?_⟩
      rw [ready,if_pos rfl]
      decide
    live := fun h alive => by
      rw [ready] at alive
      by_cases here : h = g
      · rw [here,ws]
      · rw [if_neg here] at alive
        exact absurd (Option.some.inj ((sound.live h alive).symm.trans found)) here
    waiting := fun d pending => by
      rw [same] at pending
      exact absurd ((sound.waiting d pending).1.symm.trans found) (by simp)
    watched := by rw [same]
    connected := by
      rw [ws]
      refine ⟨fun _ => ⟨g,rfl,?_⟩,fun _ => by rw [same]⟩
      rw [ready,if_pos rfl]
      decide
    made := fun h there => by
      rw [ready] at there
      by_cases here : h = g
      · rw [here,ws]
        exact .inr rfl
      · rw [if_neg here] at there
        have before := sound.made h there
        rw [same]
        exact before }
  have alike : Alike v ((w.setReady g .open_).onOpen m) := by
    rw [onOpen,← same]
    exact (Alike.send v _).trans (Alike.replay _ _)
  refine ⟨mine,alike.sound before,alike.ws.trans ws,alike.stopped.trans ?_⟩
  rw [same]
  rfl

theorem Sound.closing (sound : w.Sound) (opened : (w.sockets g).readyState = .open_) : (w.setReady g .closing).Sound where
  current h kept := by
    refine ⟨(sound.current h kept).1,?_⟩
    rw [ready_setReady]
    split
    · decide
    · exact (sound.current h kept).2
  live h alive := by
    rw [ready_setReady] at alive
    by_cases here : h = g
    · simp [here] at alive
    · rw [if_neg here] at alive
      exact sound.live h alive
  waiting := sound.waiting
  watched := sound.watched
  connected := by
    refine sound.connected.trans (exists_congr fun h => and_congr_right fun _ => ?_)
    rw [ready_setReady]
    by_cases here : h = g
    · simp [here,opened]
    · rw [if_neg here]
  made h there := by
    rw [ready_setReady] at there
    by_cases here : h = g
    · rw [here]
      exact .inr (sound.live g (.inr opened))
    · rw [if_neg here] at there
      exact sound.made h there

/-- Another socket than the current one closes. -/
theorem Sound.closed_other (sound : w.Sound) (other : w.ws ≠ some g) : (w.setReady g .closed).Sound where
  current h kept := by
    have elsewhere : h ≠ g := fun here => other (here ▸ kept)
    rw [ready_setReady,if_neg elsewhere]
    exact sound.current h kept
  live h alive := by
    rw [ready_setReady] at alive
    by_cases here : h = g
    · simp [here] at alive
    · rw [if_neg here] at alive
      exact sound.live h alive
  waiting := sound.waiting
  watched := sound.watched
  connected := by
    refine sound.connected.trans (exists_congr fun h => and_congr_right fun kept => ?_)
    have elsewhere : h ≠ g := fun here => other (here ▸ kept)
    rw [ready_setReady,if_neg elsewhere]
  made h there := by
    rw [ready_setReady] at there
    by_cases here : h = g
    · simp [here] at there
    · rw [if_neg here] at there
      exact sound.made h there

theorem Sound.closed (sound : w.Sound) (found : w.ws = some g) (m : Moment) :
    ((w.setReady g .closed).onClose m g).Sound := by
  obtain ⟨v,same⟩ : ∃ v : Watcher, v = { w.setReady g .closed with
    connected := false, staleTimer := false, ws := if (w.setReady g .closed).ws = some g then none else w.ws } := ⟨_,rfl⟩
  have gone : v.ws = none := by
    rw [same]
    exact if_pos found
  have before : v.Sound := {
    current := fun h kept => by simp [gone] at kept
    live := fun h alive => by
      have ready : (v.sockets h).readyState = if h = g then .closed else (w.sockets h).readyState := by
        rw [same]
        exact ready_setReady w g .closed h
      rw [ready] at alive
      by_cases here : h = g
      · simp [here] at alive
      · rw [if_neg here] at alive
        exact absurd (Option.some.inj ((sound.live h alive).symm.trans found)) here
    waiting := fun d pending => by
      rw [same] at pending
      exact ⟨gone,(sound.waiting d pending).2⟩
    watched := by rw [same]
    connected := by
      rw [gone,same]
      simp
    made := fun h there => by
      have ready : (v.sockets h).readyState = if h = g then .closed else (w.sockets h).readyState := by
        rw [same]
        exact ready_setReady w g .closed h
      rw [ready] at there
      by_cases here : h = g
      · simp [here] at there
      · rw [if_neg here] at there
        rcases sound.made h there with before | found'
        · rw [same]
          exact .inl before
        · exact absurd (Option.some.inj (found'.symm.trans found)) here }
  have schedule := before.schedule gone m
  rw [same] at schedule
  exact schedule

theorem Sound.stale (sound : w.Sound) (m : Moment) (running : w.stopped = false) (going : w.Going) :
    (w.onStaleTimer m).Sound ∧ (w.onStaleTimer m).stopped = false ∧ (w.onStaleTimer m).Going := by
  unfold onStaleTimer
  rw [if_neg (by simp [running])]
  by_cases silent : STALE_TIMEOUT_MS < m.now - w.lastMessageAt
  · rw [if_pos silent]
    dsimp only
    cases found : w.ws with
    | none =>
      have before : Sound { w with staleTimer := false, connected := false, ws := none } := {
        current := fun g kept => by cases kept
        live := fun g alive => found.symm.trans (sound.live g alive)
        waiting := fun d pending => ⟨rfl,(sound.waiting d pending).2⟩
        watched := rfl
        connected := by simp
        made := fun g there => (sound.made g there).imp_right found.symm.trans }
      exact ⟨before.schedule rfl m,going_schedule (by exact running) m⟩
    | some g =>
      have before := sound.dropped w.stopped (fun d pending => (sound.waiting d pending).2) found
      have fields : ∀ v : Watcher, (v.closeSocket g).ws = v.ws ∧ (v.closeSocket g).stopped = v.stopped := fun v => by
        unfold closeSocket
        split <;> exact ⟨rfl,rfl⟩
      obtain ⟨gone,kept⟩ := fields { w with staleTimer := false, connected := false, ws := none, generation := w.generation + 1 }
      exact ⟨before.schedule gone m,going_schedule (kept.trans running) m⟩
  · rw [if_neg silent]
    exact ⟨sound,running,going⟩

end Steps

end Watcher

namespace SignalsFeed
variable {s : SignalsFeed}

/-- A feed that is started has a connection or waits for one; one that is not has neither. -/
structure Steady (s : SignalsFeed) : Prop where
  sound : s.watcher.Sound
  running : s.started = true → s.watcher.stopped = false ∧ s.watcher.Going
  idle : s.started = false → s.watcher.ws = none ∧ s.watcher.reconnectTimer = none

section Steady

theorem Steady.of_ws (steady : s.Steady) {g : ℕ} (found : s.watcher.ws = some g) :
    s.started = true ∧ s.watcher.stopped = false := by
  cases started : s.started with
  | true => exact ⟨rfl,(steady.running started).1⟩
  | false => exact absurd ((steady.idle started).1.symm.trans found) (by simp)

theorem Steady.alike (steady : s.Steady) {s' : SignalsFeed} (alike : s.watcher.Alike s'.watcher)
    (same : s'.started = s.started) : s'.Steady where
  sound := alike.sound steady.sound
  running started := by
    rw [alike.stopped,alike.going]
    exact steady.running (same.symm.trans started)
  idle started := by
    rw [alike.ws,alike.reconnectTimer]
    exact steady.idle (same.symm.trans started)

theorem alike_autoFollow (s : SignalsFeed) (mint : Utf16) :
    s.watcher.Alike (s.autoFollow mint).watcher ∧ (s.autoFollow mint).started = s.started := by
  unfold autoFollow
  split
  · exact ⟨.refl _,rfl⟩
  · split
    · exact ⟨.refl _,rfl⟩
    · exact ⟨(Watcher.Alike.subscribe _ _).trans (Watcher.Alike.evict _ _ _ _),rfl⟩

theorem alike_onMessage (m : Moment) (s : SignalsFeed) (data : Text) :
    s.watcher.Alike (s.onMessage m data).watcher ∧ (s.onMessage m data).started = s.started := by
  have heard : s.watcher.Alike { s.watcher with lastMessageAt := m.now } := ⟨rfl,rfl,rfl,rfl,rfl,rfl,fun _ => rfl⟩
  unfold onMessage
  dsimp only
  split
  · exact ⟨heard,rfl⟩
  · exact ⟨heard,rfl⟩
  · obtain ⟨alike,same⟩ := alike_autoFollow { s with watcher := { s.watcher with lastMessageAt := m.now } } (by assumption)
    exact ⟨heard.trans alike,same⟩

theorem steady_make (options : SignalsFeedOptions) : (make options).Steady where
  sound := {
    current := fun g found => by cases found
    live := fun g alive => by simp [make,Watcher.make] at alive
    waiting := fun d pending => by cases pending
    watched := rfl
    connected := by simp [make,Watcher.make]
    made := fun g there => by simp [make,Watcher.make] at there }
  running started := by cases started
  idle _ := ⟨rfl,rfl⟩

theorem Steady.step (steady : s.Steady) (event : Moment × Event) : (s.step event).Steady := by
  obtain ⟨m,event⟩ := event
  have sound := steady.sound
  cases event with
  | start =>
    cases started : s.started with
    | true =>
      rw [SignalsFeed.step,start,if_pos started]
      exact steady
    | false =>
      obtain ⟨gone,_⟩ := steady.idle started
      have awake : Watcher.Sound { s.watcher with stopped := false } :=
        ⟨sound.current,sound.live,sound.waiting,sound.watched,sound.connected,sound.made⟩
      rw [SignalsFeed.step,start,if_neg (by simp [started]),Watcher.start]
      dsimp only
      rw [if_neg (by simp [gone])]
      exact ⟨awake.connect gone m,fun _ => Watcher.going_connect rfl m,fun off => by cases off⟩
  | stop =>
    rw [SignalsFeed.step,stop]
    split
    · obtain ⟨stopped,gone,off⟩ := sound.stop
      exact ⟨stopped,fun on => (nomatch on),fun _ => ⟨gone,off⟩⟩
    · exact steady
  | watch mint =>
    rw [SignalsFeed.step,watch]
    split
    · exact steady
    · exact steady.alike (Watcher.Alike.subscribe _ _) rfl
  | opened g =>
    rw [SignalsFeed.step]
    by_cases connecting : (s.watcher.sockets g).readyState = .connecting
    · have found := sound.live g (.inl connecting)
      obtain ⟨on,running⟩ := steady.of_ws found
      obtain ⟨mine,opened,ws,stopped⟩ := Watcher.Sound.opened (m := m) sound connecting fun _ => running
      rw [if_pos connecting]
      dsimp only
      rw [if_pos mine]
      refine ⟨opened,fun _ => ⟨stopped.trans running,.inl (by rw [ws]; rfl)⟩,fun off => ?_⟩
      exact absurd (off.symm.trans on) Bool.false_ne_true
    · rw [if_neg connecting]
      exact steady
  | message g data =>
    rw [SignalsFeed.step]
    split
    · obtain ⟨alike,same⟩ := alike_onMessage m s data
      exact steady.alike alike same
    · exact steady
  | closing g =>
    rw [SignalsFeed.step]
    split
    · exact ⟨sound.closing (by assumption),steady.running,steady.idle⟩
    · exact steady
  | closed g =>
    rw [SignalsFeed.step]
    by_cases closed : (s.watcher.sockets g).readyState = .closed
    · rw [if_pos closed]
      exact steady
    · rw [if_neg closed]
      dsimp only
      by_cases found : s.watcher.ws = some g
      · obtain ⟨on,running⟩ := steady.of_ws found
        have mine : (s.watcher.setReady g .closed).Mine g := ⟨(sound.current g found).1,running⟩
        rw [if_pos mine]
        refine ⟨sound.closed found m,fun _ => Watcher.going_schedule (by exact running) m,fun off => ?_⟩
        exact absurd (off.symm.trans on) Bool.false_ne_true
      · have other : ¬(s.watcher.setReady g .closed).Mine g := by
          rintro ⟨same,_⟩
          rcases sound.made g closed with before | current
          · exact absurd same before.ne
          · exact found current
        rw [if_neg other]
        exact ⟨sound.closed_other found,steady.running,steady.idle⟩
  | reconnect =>
    rw [SignalsFeed.step]
    by_cases pending : s.watcher.reconnectTimer.isSome = true
    · obtain ⟨d,timer⟩ := Option.isSome_iff_exists.mp pending
      obtain ⟨gone,_⟩ := sound.waiting d timer
      have fired : Watcher.Sound { s.watcher with reconnectTimer := none } :=
        ⟨sound.current,sound.live,fun d found => (nomatch found),sound.watched,sound.connected,sound.made⟩
      have on : s.started = true := by
        by_contra off
        simp [(steady.idle (by simpa using off)).2] at pending
      rw [if_pos pending,Watcher.onReconnectTimer]
      refine ⟨fired.connect gone m,fun _ => Watcher.going_connect (by exact (steady.running on).1) m,fun off => ?_⟩
      exact absurd (off.symm.trans on) Bool.false_ne_true
    · rw [if_neg pending]
      exact steady
  | watchdog =>
    rw [SignalsFeed.step]
    by_cases watched : s.watcher.staleTimer = true
    · obtain ⟨g,found,_⟩ := sound.connected.mp (sound.watched.symm.trans watched)
      obtain ⟨on,running⟩ := steady.of_ws found
      obtain ⟨stale,later,going⟩ := sound.stale m running (steady.running on).2
      rw [if_pos watched]
      refine ⟨stale,fun _ => ⟨later,going⟩,fun off => ?_⟩
      exact absurd (off.symm.trans on) Bool.false_ne_true
    · rw [if_neg watched]
      exact steady

theorem steady_after (options : SignalsFeedOptions) (events : List (Moment × Event)) : (after options events).Steady :=
  Run.invariant (fun _ event _ steady => steady.step event) (steady_make options)
    (Run.Meets.of_forall (fun _ _ => trivial) _)

end Steady

/-- The feed never holds two sockets that are connecting or open. While it is started it has a
socket that has not closed, or else a reconnect that is due within the bounds of the backoff, and
the watchdog runs exactly while it is connected; while it is not started nothing of it is left. -/
theorem one_connection (options : SignalsFeedOptions) (events : List (Moment × Event)) :
    let s := after options events
    let w := s.watcher
    (∀ g h, w.Live g → w.Live h → g = h) ∧
    (s.started = true → (∃ g, w.ws = some g ∧ (w.sockets g).readyState ≠ .closed ∧ w.reconnectTimer = none) ∨
      ∃ d, w.ws = none ∧ w.reconnectTimer = some d ∧ 500 ≤ d ∧ d < 30000) ∧
    (w.staleTimer = true ↔ w.connected = true) ∧
    (s.started = false → w.reconnectTimer = none ∧ w.staleTimer = false ∧ w.connected = false ∧ ∀ g, ¬w.Live g) := by
  intro s w
  have steady : s.Steady := steady_after options events
  have sound : w.Sound := steady.sound
  refine ⟨?_,?_,by rw [sound.watched],?_⟩
  · intro g h first second
    exact Option.some.inj ((sound.live g first).symm.trans (sound.live h second))
  · intro started
    rcases (steady.running started).2 with found | pending
    · obtain ⟨g,found⟩ := Option.isSome_iff_exists.mp found
      refine .inl ⟨g,found,(sound.current g found).2,?_⟩
      by_contra pending
      obtain ⟨d,pending⟩ := Option.ne_none_iff_exists'.mp pending
      exact absurd ((sound.waiting d pending).1.symm.trans found) (by simp)
    · obtain ⟨d,pending⟩ := Option.isSome_iff_exists.mp pending
      obtain ⟨gone,bounds⟩ := sound.waiting d pending
      exact .inr ⟨d,gone,pending,bounds⟩
  · intro off
    obtain ⟨gone,idle⟩ := steady.idle off
    have silent : w.connected = false := by
      rw [← Bool.not_eq_true,sound.connected]
      rintro ⟨g,found,_⟩
      exact absurd (gone.symm.trans found) (by simp)
    refine ⟨idle,sound.watched.trans silent,silent,fun g alive => ?_⟩
    exact absurd (gone.symm.trans (sound.live g alive)) (by simp)

end SignalsFeed

end RatifyOs.Watch
