import RatifyOs.Web.Console

/-! What the sessions of the console are worth: who is let through, for how long a session lasts,
and how often a token can be guessed. -/
namespace RatifyOs.Web
open Data Kernel

namespace ControlAuth
variable {sessions : List (String × ℤ)} {key : String} {entry : String × ℤ}

section Map

theorem mem_delete : entry ∈ delete sessions key ↔ entry ∈ sessions ∧ entry.1 ≠ key := by
  simp [delete]

theorem mem_set {expiresAt : ℤ} (inside : entry ∈ set sessions key expiresAt) :
    entry ∈ sessions ∧ entry.1 ≠ key ∨ entry = (key,expiresAt) := by
  unfold set at inside
  split at inside
  · obtain ⟨old,found,same⟩ := List.mem_map.mp inside
    split at same
    · exact .inr same.symm
    · rename_i other
      exact .inl (same ▸ ⟨found,other⟩)
  · rename_i absent
    rw [List.mem_append,List.mem_singleton] at inside
    rcases inside with found | new
    · exact .inl ⟨found,fun same => absent (same ▸ List.mem_map_of_mem found)⟩
    · exact .inr new

theorem set_of_absent {expiresAt : ℤ} (absent : ∀ entry ∈ sessions, entry.1 ≠ key) :
    set sessions key expiresAt = sessions ++ [(key,expiresAt)] := by
  rw [set,if_neg fun found => ?_]
  obtain ⟨entry,inside,same⟩ := List.mem_map.mp found
  exact absent entry inside same

theorem lookup_mem {expiresAt : ℤ} (found : sessions.lookup key = some expiresAt) : (key,expiresAt) ∈ sessions := by
  induction sessions with
  | nil => cases found
  | cons first rest ih =>
    rw [List.lookup_cons] at found
    split at found
    · rename_i same
      cases found
      rw [beq_iff_eq.mp same]
      exact .head _
    · exact .tail _ (ih found)

theorem length_set_le (expiresAt : ℤ) : (set sessions key expiresAt).length ≤ sessions.length + 1 := by
  unfold set
  split <;> simp

theorem oldest_mem (found : oldest sessions = some entry) : entry ∈ sessions := by
  induction sessions generalizing entry with
  | nil => cases found
  | cons first rest ih =>
    rw [oldest] at found
    split at found
    · cases found
      exact .head _
    · rename_i other later
      split at found
      · cases found
        exact .tail _ (ih later)
      · cases found
        exact .head _

theorem oldest_of_ne_nil (some_ : sessions ≠ []) : ∃ entry, oldest sessions = some entry := by
  cases sessions with
  | nil => exact absurd rfl some_
  | cons first rest =>
    rw [oldest]
    split
    · exact ⟨_,rfl⟩
    · split <;> exact ⟨_,rfl⟩

/-- Among those that expire first, the first is taken. -/
theorem oldest_append {older newer : List (String × ℤ)} {first : String × ℤ} (found : oldest older = some first) :
    oldest (older ++ newer) = some first ∨ ∃ other, oldest (older ++ newer) = some other ∧ other.2 < first.2 := by
  induction older generalizing first with
  | nil => cases found
  | cons head rest ih =>
    rw [oldest] at found
    rw [List.cons_append,oldest]
    cases later : oldest rest with
    | none =>
      rw [later] at found
      cases found
      cases oldest (rest ++ newer) with
      | none => exact .inl rfl
      | some other =>
        dsimp only
        split
        · exact .inr ⟨other,rfl,by assumption⟩
        · exact .inl rfl
    | some least =>
      rw [later] at found
      dsimp only at found
      rcases ih later with same | ⟨other,same,less⟩
      · rw [same]
        exact .inl found
      · rw [same]
        dsimp only
        split at found
        · rename_i lower
          cases found
          rw [if_pos (less.trans lower)]
          exact .inr ⟨other,rfl,less⟩
        · cases found
          split
          · exact .inr ⟨other,rfl,by assumption⟩
          · exact .inl rfl

theorem mem_withRoom (inside : entry ∈ withRoom sessions) : entry ∈ sessions := by
  unfold withRoom at inside
  split at inside
  · split at inside
    · exact (mem_delete.mp inside).1
    · exact inside
  · exact inside

theorem length_withRoom_lt (few : sessions.length ≤ MAX_SESSIONS) : (withRoom sessions).length < MAX_SESSIONS := by
  unfold withRoom
  split
  · rename_i full
    obtain ⟨entry,found⟩ := @oldest_of_ne_nil sessions (by rintro rfl; simp [MAX_SESSIONS] at full)
    rw [found]
    refine lt_of_lt_of_le ?_ few
    exact List.length_filter_lt_length_iff_exists.mpr ⟨entry,oldest_mem found,by simp⟩
  · rename_i room
    exact not_le.mp room

end Map

section Auth
variable {sha256 : String → Bytes} {auth : ControlAuth} {now : ℤ}

theorem verifySession_fst (id : Option String) : ∃ sessions, (auth.verifySession sha256 now id).1 = { auth with sessions } ∧
    (sessions = auth.sessions ∨ ∃ key expiresAt, auth.sessions.lookup key = some expiresAt ∧ expiresAt ≤ now ∧
      sessions = delete auth.sessions key) := by
  unfold verifySession
  split
  · exact ⟨_,rfl,.inl rfl⟩
  · dsimp only
    split
    · exact ⟨_,rfl,.inl rfl⟩
    · rename_i expiresAt found
      split
      · rename_i expired
        exact ⟨_,rfl,.inr ⟨_,expiresAt,found,expired,rfl⟩⟩
      · exact ⟨_,rfl,.inl rfl⟩

theorem verifySession_iff (id : Option String) : (auth.verifySession sha256 now id).2 = true ↔
    ∃ text expiresAt, id = some text ∧ text ≠ "" ∧ auth.sessions.lookup (keyOf sha256 text) = some expiresAt ∧
      now < expiresAt := by
  unfold verifySession
  cases id with
  | none => simp [filled]
  | some text =>
    by_cases empty : text = ""
    · have none_ : filled (some "") = none := rfl
      rw [empty,none_]
      simp
    · have there : filled (some text) = some text := by simp [filled,empty]
      rw [there]
      dsimp only
      cases found : auth.sessions.lookup (keyOf sha256 text) with
      | none => simp [found]
      | some expiresAt =>
        by_cases expired : expiresAt ≤ now
        · simp [found,expired]
        · simp [found,expired,empty,not_le.mp expired]

end Auth

end ControlAuth

namespace Console
open ControlAuth
variable {sha256 : String → Bytes} {urlHost : String → Option String} {c : Console}

/-- A request signs the session of this key out. -/
def SignsOut (sha256 : String → Bytes) (key : String) : Moment × Request × Call → Prop
  | (_,req,.signOut) => ∃ id, readCookie req.cookie SESSION_COOKIE = some (some id) ∧ id ≠ "" ∧ keyOf sha256 id = key
  | _ => False

/-- The request mints this session, against the right token. -/
def Mints (sha256 : String → Bytes) (urlHost : String → Option String) (c : Console) (entry : String × ℤ) :
    Moment × Request × Call → Prop
  | (m,req,.signIn (some token)) =>
    (c.handle sha256 urlHost (m,req,.signIn (some token))).2 = .signedIn m.id entry.2 c.auth.scopes ∧
      c.auth.verifyToken sha256 token = true ∧ keyOf sha256 m.id = entry.1 ∧ entry.2 = m.now + c.auth.ttl
  | _ => False

/-- Everything of the authority but its sessions is as it was. -/
def Fixed (auth auth' : ControlAuth) : Prop := ∃ sessions, auth' = { auth with sessions }

section Step

theorem authenticated_eq {now : ℤ} {req : Request} {c' : Console} {valid : Bool}
    (found : c.authenticated sha256 now req = some (c',valid)) :
    ∃ sessions, c' = { c with auth := { c.auth with sessions } } ∧
      sessions.Sublist c.auth.sessions ∧
      (∀ entry ∈ c.auth.sessions, (∀ other ∈ c.auth.sessions, other.1 = entry.1 → now < other.2) → entry ∈ sessions) ∧
      (valid = true → c.auth.verifyAuthorizationHeader sha256 req.authorization = true ∨
        ∃ id expiresAt, readCookie req.cookie SESSION_COOKIE = some (some id) ∧ id ≠ "" ∧
          c.auth.sessions.lookup (keyOf sha256 id) = some expiresAt ∧ now < expiresAt) := by
  unfold authenticated at found
  split at found
  · cases found
    exact ⟨_,rfl,.refl _,fun _ inside _ => inside,fun on => by cases on⟩
  · split at found
    · rename_i bearer
      cases found
      exact ⟨_,rfl,.refl _,fun _ inside _ => inside,fun _ => .inl bearer⟩
    · obtain ⟨id,cookie,same⟩ := Option.map_eq_some_iff.mp found
      obtain ⟨sessions,after_,changed⟩ := @verifySession_fst sha256 c.auth now id
      have valid_ := @verifySession_iff sha256 c.auth now id
      cases same
      refine ⟨sessions,congrArg (fun auth => { c with auth }) after_,?_,?_,fun on => .inr ?_⟩
      · rcases changed with rfl | ⟨key,_,_,_,rfl⟩
        · exact .refl _
        · exact List.filter_sublist
      · rcases changed with rfl | ⟨key,expiresAt,there,expired,rfl⟩
        · exact fun _ inside _ => inside
        · refine fun entry inside lasting => mem_delete.mpr ⟨inside,fun same => ?_⟩
          exact absurd (lasting _ (lookup_mem there) same.symm) (not_lt.mpr expired)
      · obtain ⟨text,expiresAt,rfl,some_,there,later⟩ := valid_.mp on
        exact ⟨text,expiresAt,cookie,some_,there,later⟩

theorem guard_spec (c : Console) (now : ℤ) (req : Request) (scope : String) :
    ∃ sessions refusal, c.guard sha256 now req scope = ({ c with auth := { c.auth with sessions } },refusal) ∧
      sessions.Sublist c.auth.sessions ∧
      (∀ entry ∈ c.auth.sessions, (∀ other ∈ c.auth.sessions, other.1 = entry.1 → now < other.2) → entry ∈ sessions) ∧
      (refusal = none → c.auth.configured = true ∧ c.auth.hasScope scope = true ∧
        (c.auth.verifyAuthorizationHeader sha256 req.authorization = true ∨
          ∃ id expiresAt, readCookie req.cookie SESSION_COOKIE = some (some id) ∧ id ≠ "" ∧
            c.auth.sessions.lookup (keyOf sha256 id) = some expiresAt ∧ now < expiresAt)) := by
  unfold guard
  split
  · exact ⟨c.auth.sessions,_,rfl,.refl _,fun _ inside _ => inside,fun on => by cases on⟩
  · rename_i configured
    rw [Bool.not_eq_false] at configured
    cases found : c.authenticated sha256 now req with
    | none => exact ⟨c.auth.sessions,_,rfl,.refl _,fun _ inside _ => inside,fun on => by cases on⟩
    | some answer =>
      obtain ⟨c',valid⟩ := answer
      obtain ⟨sessions,rfl,fewer,lasting,credential⟩ := authenticated_eq found
      cases valid with
      | false => exact ⟨sessions,_,rfl,fewer,lasting,fun on => by cases on⟩
      | true =>
        dsimp only
        split
        · rename_i allowed
          exact ⟨sessions,none,rfl,fewer,lasting,fun _ => ⟨configured,allowed,credential rfl⟩⟩
        · exact ⟨sessions,_,rfl,fewer,lasting,fun on => by cases on⟩

/-- What a request can do to the sessions: one that is no sign-in takes away those that have expired
and the one it signs out. -/
structure Change (sha256 : String → Bytes) (urlHost : String → Option String) (c c' : Console)
    (event : Moment × Request × Call) : Prop where
  fixed : Fixed c.auth c'.auth
  source : ∀ entry ∈ c'.auth.sessions,
    entry ∈ c.auth.sessions ∧ ¬SignsOut sha256 entry.1 event ∨ Mints sha256 urlHost c entry event
  thinned : (∀ token, event.2.2 ≠ .signIn token) → c'.auth.sessions.Sublist c.auth.sessions ∧
    ∀ entry ∈ c.auth.sessions, (∀ other ∈ c.auth.sessions, other.1 = entry.1 → event.1.now < other.2) →
      ¬SignsOut sha256 entry.1 event → entry ∈ c'.auth.sessions

theorem Change.of_fewer {sessions : List (String × ℤ)} (fewer : sessions.Sublist c.auth.sessions)
    {event : Moment × Request × Call} (lasting : ∀ entry ∈ c.auth.sessions,
      (∀ other ∈ c.auth.sessions, other.1 = entry.1 → event.1.now < other.2) → entry ∈ sessions)
    (other : event.2.2 ≠ .signOut) (controller : PolicyController) (attempts : String → Option Attempts) :
    Change sha256 urlHost c ⟨{ c.auth with sessions },attempts,controller⟩ event where
  fixed := ⟨sessions,rfl⟩
  source entry inside := by
    refine .inl ⟨fewer.subset inside,fun out => ?_⟩
    obtain ⟨m,req,call⟩ := event
    cases call with
    | signOut => exact other rfl
    | signIn | readSession | killSwitch | execution | other => exact out
  thinned _ := ⟨fewer,fun entry inside young _ => lasting entry inside young⟩

theorem change_policyRoute (c : Console) (m : Moment) (req : Request) (field : String) (value : Option Bool)
    (apply : Bool → Except PolicyControlError PolicyController) {call : Call} (other : call ≠ .signOut) :
    Change sha256 urlHost c (c.policyRoute sha256 urlHost m req field value apply).1 (m,req,call) := by
  obtain ⟨sessions,refusal,guarded,fewer,lasting,_⟩ := @guard_spec sha256 c m.now req CONTROL_SCOPES_policy
  unfold policyRoute
  rw [guarded]
  cases refusal with
  | some refusal => exact .of_fewer fewer lasting other _ _
  | none =>
    dsimp only
    split
    · exact .of_fewer fewer lasting other _ _
    · split
      · exact .of_fewer fewer lasting other _ _
      · split <;> exact .of_fewer fewer lasting other _ _

theorem change_other (c : Console) (m : Moment) (req : Request) (scope : String) (writes : Bool) {call : Call}
    (other : call ≠ .signOut) : Change sha256 urlHost c (c.other sha256 urlHost m req scope writes).1 (m,req,call) := by
  obtain ⟨sessions,refusal,guarded,fewer,lasting,_⟩ := @guard_spec sha256 c m.now req scope
  unfold Console.other
  rw [guarded]
  cases refusal with
  | some refusal => exact .of_fewer fewer lasting other _ _
  | none =>
    dsimp only
    split
    · split <;> exact .of_fewer fewer lasting other _ _
    · exact .of_fewer fewer lasting other _ _

theorem change_readSession (c : Console) (m : Moment) (req : Request) :
    Change sha256 urlHost c (c.readSession sha256 m req).1 (m,req,.readSession) := by
  have same : Change sha256 urlHost c c (m,req,.readSession) :=
    .of_fewer (.refl _) (fun _ inside _ => inside) (by simp) c.controller c.attempts
  unfold readSession
  cases found : c.authenticated sha256 m.now req with
  | none => exact same
  | some answer =>
    obtain ⟨c',valid⟩ := answer
    obtain ⟨sessions,rfl,fewer,lasting,_⟩ := authenticated_eq found
    dsimp only
    cases again : authenticated sha256 { c with auth := { c.auth with sessions } } m.now req with
    | none => exact .of_fewer fewer lasting (by simp) _ _
    | some answer =>
      obtain ⟨c'',valid'⟩ := answer
      obtain ⟨sessions',rfl,fewer',lasting',_⟩ := authenticated_eq again
      refine .of_fewer (fewer'.trans fewer) (fun entry inside young => ?_) (by simp) _ _
      exact lasting' entry (lasting entry inside young) fun other found => young other (fewer.subset found)

theorem change_signOut (c : Console) (m : Moment) (req : Request) :
    Change sha256 urlHost c (c.signOut sha256 req).1 (m,req,.signOut) := by
  unfold signOut
  cases cookie : readCookie req.cookie SESSION_COOKIE with
  | none =>
    refine ⟨⟨_,rfl⟩,fun entry inside => .inl ⟨inside,?_⟩,fun _ => ⟨.refl _,fun _ inside _ _ => inside⟩⟩
    rintro ⟨id,there,_⟩
    exact absurd (cookie.symm.trans there) (by simp)
  | some id =>
    dsimp only [revokeSession]
    cases there : filled id with
    | none =>
      refine ⟨⟨_,rfl⟩,fun entry inside => .inl ⟨inside,?_⟩,fun _ => ⟨.refl _,fun _ inside _ _ => inside⟩⟩
      rintro ⟨text,found,some_,_⟩
      cases Option.some.inj (cookie.symm.trans found)
      simp [filled,some_] at there
    | some text =>
      obtain ⟨same,some_⟩ := Option.filter_eq_some_iff.mp there
      refine ⟨⟨_,rfl⟩,fun entry inside => .inl ⟨(mem_delete.mp inside).1,?_⟩,fun _ => ⟨List.filter_sublist,?_⟩⟩
      rotate_left
      · refine fun entry inside _ kept => mem_delete.mpr ⟨inside,fun gone => kept ⟨text,?_,?_,gone.symm⟩⟩
        · rw [cookie,same]
        · simpa using some_
      rintro ⟨text',found,_,digest⟩
      cases Option.some.inj (cookie.symm.trans found)
      have texts : text' = text := Option.some.inj same
      exact (mem_delete.mp inside).2 (by rw [← digest,texts])

theorem change_signIn (c : Console) (m : Moment) (req : Request) (token : Option String) :
    Change sha256 urlHost c (c.signIn sha256 urlHost m req token).1 (m,req,.signIn token) := by
  have same : ∀ attempts, Change sha256 urlHost c { c with attempts } (m,req,.signIn token) := fun attempts =>
    .of_fewer (.refl _) (fun _ inside _ => inside) (by simp) c.controller attempts
  obtain ⟨r,result⟩ : ∃ r, r = c.signIn sha256 urlHost m req token := ⟨_,rfl⟩
  have whole := result
  unfold signIn at result
  split at result
  · rw [← whole,result]
    exact same c.attempts
  · split at result
    · rw [← whole,result]
      exact same c.attempts
    · dsimp only at result
      split at result
      · rw [← whole,result]
        exact same _
      · split at result
        · rw [← whole,result]
          exact same _
        · rename_i verified
          rw [Bool.not_eq_false] at verified
          cases token with
          | none => cases verified
          | some token =>
            rw [← whole]
            have answer : (c.handle sha256 urlHost (m,req,.signIn (some token))).2 = r.2 := by rw [whole]; rfl
            rw [result] at answer ⊢
            refine ⟨⟨_,rfl⟩,fun entry inside => ?_,fun other => absurd rfl (other _)⟩
            rcases mem_set inside with ⟨old,_⟩ | rfl
            · exact .inl ⟨(List.mem_filter.mp (mem_withRoom old)).1,fun out => out⟩
            · exact .inr ⟨answer,verified,rfl,rfl⟩

theorem change (c : Console) (event : Moment × Request × Call) :
    Change sha256 urlHost c (c.step sha256 urlHost event) event := by
  obtain ⟨m,req,call⟩ := event
  cases call with
  | signIn token => exact change_signIn c m req token
  | signOut => exact change_signOut c m req
  | readSession => exact change_readSession c m req
  | killSwitch engaged => exact change_policyRoute c m req _ _ _ (by simp)
  | execution enabled => exact change_policyRoute c m req _ _ _ (by simp)
  | other scope writes => exact change_other c m req scope writes (by simp)

end Step

section Run
variable (sha256 : String → Bytes) (urlHost : String → Option String) (options : ControlAuthOptions)
  (controller : PolicyController)

theorem after_concat (events : List (Moment × Request × Call)) (event : Moment × Request × Call) :
    after sha256 urlHost options controller (events ++ [event]) =
      (after sha256 urlHost options controller events).step sha256 urlHost event := Run.run_append _ _ _

theorem fixed_after (events : List (Moment × Request × Call)) :
    Fixed (.make sha256 options) (after sha256 urlHost options controller events).auth := by
  induction events using List.reverseRecOn with
  | nil => exact ⟨[],rfl⟩
  | append_singleton events event ih =>
    obtain ⟨sessions,same⟩ := ih
    obtain ⟨sessions',same'⟩ := (@change sha256 urlHost (after sha256 urlHost options controller events) event).fixed
    rw [after_concat]
    exact ⟨sessions',by rw [same',same]⟩

/-- The session came from an earlier sign-in, and nobody has signed it out since. -/
def Minted (events : List (Moment × Request × Call)) (entry : String × ℤ) : Prop :=
  ∃ before event rest, events = before ++ event :: rest ∧
    Mints sha256 urlHost (after sha256 urlHost options controller before) entry event ∧
    ∀ later ∈ rest, ¬SignsOut sha256 entry.1 later

theorem minted_of_mem (events : List (Moment × Request × Call)) :
    ∀ entry ∈ (after sha256 urlHost options controller events).auth.sessions,
      Minted sha256 urlHost options controller events entry := by
  induction events using List.reverseRecOn with
  | nil => exact fun entry inside => absurd inside List.not_mem_nil
  | append_singleton events event ih =>
    intro entry inside
    rw [after_concat] at inside
    rcases (change _ event).source entry inside with ⟨old,kept⟩ | new
    · obtain ⟨before,first,rest,rfl,mints,lasting⟩ := ih entry old
      refine ⟨before,first,rest ++ [event],by simp,mints,fun later found => ?_⟩
      rcases List.mem_append.mp found with found | last
      · exact lasting later found
      · rw [List.mem_singleton.mp last]
        exact kept
    · exact ⟨events,event,[],rfl,new,fun later found => absurd found List.not_mem_nil⟩

end Run

section Lasting
variable {sha256 : String → Bytes} {urlHost : String → Option String}

/-- The session has so many younger ones behind it. -/
structure Held (c : Console) (entry : String × ℤ) (k : ℕ) : Prop where
  split : ∃ older newer, c.auth.sessions = older ++ entry :: newer ∧ newer.length ≤ k ∧ (∀ old ∈ older, old.2 ≤ entry.2) ∧
    (∀ other ∈ older ++ newer, other.1 ≠ entry.1)

theorem Held.mono {c : Console} {entry : String × ℤ} {k n : ℕ} (held : Held c entry k) (le : k ≤ n) : Held c entry n := by
  obtain ⟨older,newer,split,length,bounds⟩ := held.split
  exact ⟨older,newer,split,length.trans le,bounds⟩

/-- Whether a request is a sign-in that succeeds. -/
def accepts (sha256 : String → Bytes) (urlHost : String → Option String) (c : Console)
    (event : Moment × Request × Call) : Bool :=
  match (c.handle sha256 urlHost event).2 with
  | .signedIn .. => true
  | _ => false

/-- How many sign-ins of a run succeed. -/
def signedIn (sha256 : String → Bytes) (urlHost : String → Option String) : Console → List (Moment × Request × Call) → ℕ
  | _, [] => 0
  | c, event :: events =>
    (if accepts sha256 urlHost c event then 1 else 0) + signedIn sha256 urlHost (c.step sha256 urlHost event) events

theorem signIn_cases (c : Console) (m : Moment) (req : Request) (token : Option String) :
    accepts sha256 urlHost c (m,req,.signIn token) = false ∧
        (c.step sha256 urlHost (m,req,.signIn token)).auth = c.auth ∨
      accepts sha256 urlHost c (m,req,.signIn token) = true ∧
        (c.step sha256 urlHost (m,req,.signIn token)).auth = (c.auth.createSession sha256 m.now m.id).1 := by
  obtain ⟨r,result⟩ : ∃ r, r = c.signIn sha256 urlHost m req token := ⟨_,rfl⟩
  have answer : c.handle sha256 urlHost (m,req,.signIn token) = r := result.symm
  rw [accepts,step,answer]
  unfold signIn at result
  split at result
  · rename_i refusal closed
    refine .inl ⟨?_,by rw [result]⟩
    rw [result]
    unfold writable at closed
    split at closed
    · cases closed
      rfl
    · split at closed
      · cases closed
        rfl
      · cases closed
  · split at result
    · rw [result]
      exact .inl ⟨rfl,rfl⟩
    · dsimp only at result
      split at result
      · rw [result]
        exact .inl ⟨rfl,rfl⟩
      · split at result
        · rw [result]
          exact .inl ⟨rfl,rfl⟩
        · rw [result]
          exact .inr ⟨rfl,rfl⟩

theorem Held.sublist {c c' : Console} {entry : String × ℤ} {k : ℕ} (held : Held c entry k)
    (fewer : c'.auth.sessions.Sublist c.auth.sessions) (inside : entry ∈ c'.auth.sessions) : Held c' entry k := by
  obtain ⟨older,newer,split,length,old,others⟩ := held.split
  rw [split] at fewer
  obtain ⟨first,rest,same,first_,rest_⟩ := List.sublist_append_iff.mp fewer
  have absent : ∀ part : List (String × ℤ), (∀ other ∈ part, other ∈ older ++ newer) → entry ∉ part := fun part inner found =>
    others entry (inner entry found) rfl
  rw [same] at inside
  have later : entry ∈ rest := (List.mem_append.mp inside).resolve_left
    (absent first fun other found => List.mem_append_left _ (first_.subset found))
  cases rest_ with
  | cons _ below => exact absurd later (absent rest fun other found => List.mem_append_right _ (below.subset found))
  | cons_cons _ below =>
    refine ⟨first,_,same,below.length_le.trans length,fun other found => old other (first_.subset found),?_⟩
    intro other found
    refine others other ?_
    exact List.mem_append.mpr ((List.mem_append.mp found).imp (fun found => first_.subset found) fun found => below.subset found)

/-- A sign-in that succeeds makes the session one older; only the sixty-fourth drops it. -/
theorem Held.create {c : Console} {entry : String × ℤ} {k : ℕ} (held : Held c entry k) {now : ℤ} {id : String}
    (early : now < entry.2) (few : k + 1 < MAX_SESSIONS) (fresh : ∀ old ∈ c.auth.sessions, old.1 ≠ keyOf sha256 id)
    {c' : Console} (same : c'.auth = (c.auth.createSession sha256 now id).1) : Held c' entry (k + 1) := by
  obtain ⟨older,newer,split,length,old,others⟩ := held.split
  obtain ⟨kept,pruned⟩ : ∃ kept, kept = prune now c.auth.sessions := ⟨_,rfl⟩
  have sub : kept.Sublist c.auth.sessions := pruned ▸ List.filter_sublist
  have absent : ∀ other ∈ withRoom kept, other.1 ≠ keyOf sha256 id := fun other found =>
    fresh other (sub.subset (mem_withRoom found))
  have sessions : c'.auth.sessions = withRoom kept ++ [(keyOf sha256 id,now + c.auth.ttl)] := by
    rw [same,createSession]
    dsimp only
    rw [← pruned,set_of_absent absent]
  have parts : kept = older.filter (fun other => now < other.2) ++ entry :: newer.filter (fun other => now < other.2) := by
    rw [pruned,prune,split,List.filter_append,List.filter_cons_of_pos (by simpa using early)]
  obtain ⟨older',same'⟩ : ∃ older', older' = older.filter fun other => now < other.2 := ⟨_,rfl⟩
  obtain ⟨newer',same''⟩ : ∃ newer', newer' = newer.filter fun other => now < other.2 := ⟨_,rfl⟩
  rw [← same',← same''] at parts
  have inner : ∀ other ∈ older' ++ newer', other.1 ≠ entry.1 := fun other found => by
    refine others other ?_
    rw [same',same''] at found
    exact List.mem_append.mpr ((List.mem_append.mp found).imp (fun found => (List.mem_filter.mp found).1)
      fun found => (List.mem_filter.mp found).1)
  have short : newer'.length ≤ k := by
    rw [same'']
    exact (List.length_filter_le _ _).trans length
  have entry_fresh : entry.1 ≠ keyOf sha256 id := fresh entry (by rw [split]; simp)
  -- What making room leaves: the session stays, and those before it are no younger than they were.
  have room : ∃ first rest, withRoom kept = first ++ entry :: rest ∧ first.Sublist older' ∧ rest.Sublist newer' := by
    unfold withRoom
    split
    · rename_i full
      obtain ⟨last,found⟩ := @oldest_of_ne_nil kept (by rw [parts]; simp)
      have other : last.1 ≠ entry.1 := by
        have some_ : older' ≠ [] := by
          rintro rfl
          rw [parts,List.nil_append,List.length_cons] at full
          omega
        obtain ⟨first,head⟩ := oldest_of_ne_nil some_
        have low : first.2 ≤ entry.2 := by
          have found' := oldest_mem head
          rw [same'] at found'
          exact old first (List.mem_filter.mp found').1
        rcases @oldest_append _ (entry :: newer') _ head with here | ⟨below,here,less⟩
        · rw [← parts,found] at here
          cases here
          exact inner _ (List.mem_append_left _ (oldest_mem head))
        · rw [← parts,found] at here
          cases here
          have inside := oldest_mem found
          rw [parts] at inside
          intro clash
          rcases List.mem_append.mp inside with before | after_
          · exact inner _ (List.mem_append_left _ before) clash
          · rcases List.mem_cons.mp after_ with same | behind
            · rw [same] at less
              exact absurd low (not_le.mpr less)
            · exact inner _ (List.mem_append_right _ behind) clash
      rw [found]
      dsimp only
      refine ⟨delete older' last.1,delete newer' last.1,?_,List.filter_sublist,List.filter_sublist⟩
      rw [parts,delete,List.filter_append,List.filter_cons_of_pos (by simpa using other.symm)]
      rfl
    · exact ⟨older',newer',parts,.refl _,.refl _⟩
  obtain ⟨first,rest,made,first_,rest_⟩ := room
  refine ⟨first,rest ++ [(keyOf sha256 id,now + c.auth.ttl)],?_,?_,fun other found => ?_,fun other found => ?_⟩
  · rw [sessions,made,List.append_assoc,List.cons_append]
  · rw [List.length_append,List.length_singleton]
    exact Nat.add_le_add_right (rest_.length_le.trans short) 1
  · have found' := first_.subset found
    rw [same'] at found'
    exact old other (List.mem_filter.mp found').1
  · rw [← List.append_assoc] at found
    rcases List.mem_append.mp found with found | last
    · exact inner other (List.mem_append.mpr ((List.mem_append.mp found).imp (fun found => first_.subset found)
        fun found => rest_.subset found))
    · rw [List.mem_singleton.mp last]
      exact entry_fresh.symm

theorem signedIn_concat (c : Console) (events : List (Moment × Request × Call)) (event : Moment × Request × Call) :
    signedIn sha256 urlHost c (events ++ [event]) = signedIn sha256 urlHost c events +
      if accepts sha256 urlHost (Run.run (step sha256 urlHost) c events) event then 1 else 0 := by
  induction events generalizing c with
  | nil => rw [List.nil_append,signedIn,signedIn,signedIn,Nat.add_zero,Nat.zero_add]; rfl
  | cons first events ih =>
    rw [List.cons_append,signedIn,signedIn,ih,Nat.add_assoc]
    rfl

theorem Held.lookup {c : Console} {entry : String × ℤ} {k : ℕ} (held : Held c entry k) :
    c.auth.sessions.lookup entry.1 = some entry.2 ∧ ∀ other ∈ c.auth.sessions, other.1 = entry.1 → other = entry := by
  obtain ⟨older,newer,split,_,_,others⟩ := held.split
  rw [split]
  constructor
  · have none_ : older.lookup entry.1 = none := by
      rw [List.lookup_eq_none_iff]
      intro old found
      exact bne_iff_ne.mpr (others old (List.mem_append_left _ found)).symm
    rw [List.lookup_append,none_,Option.none_or,List.lookup_cons_self]
  · intro other found same
    by_contra differs
    refine others other ?_ same
    rcases List.mem_append.mp found with before | later
    · exact List.mem_append_left _ before
    · exact List.mem_append_right _ ((List.mem_cons.mp later).resolve_left differs)

/-- The keys of the ids that were at hand for sign-ins. -/
def keysDrawn (sha256 : String → Bytes) (events : List (Moment × Request × Call)) : List String :=
  events.filterMap fun event => match event with
    | (m,_,.signIn _) => some (keyOf sha256 m.id)
    | _ => none

section After
variable (options : ControlAuthOptions) (controller : PolicyController)

theorem ttl_after (events : List (Moment × Request × Call)) :
    (after sha256 urlHost options controller events).auth.ttl = (ControlAuth.make sha256 options).ttl := by
  obtain ⟨sessions,same⟩ := fixed_after sha256 urlHost options controller events
  rw [same]

/-- A session has its key and its end from a sign-in of the run. -/
theorem drawn_of_mem {events : List (Moment × Request × Call)} {entry : String × ℤ}
    (inside : entry ∈ (after sha256 urlHost options controller events).auth.sessions) :
    entry.1 ∈ keysDrawn sha256 events ∧
      ∃ event ∈ events, entry.2 = event.1.now + (ControlAuth.make sha256 options).ttl := by
  obtain ⟨before,event,rest,rfl,mints,_⟩ := minted_of_mem sha256 urlHost options controller events entry inside
  obtain ⟨m,req,call⟩ := event
  cases call with
  | signIn token =>
    cases token with
    | none => cases mints
    | some token =>
      obtain ⟨_,_,key,end_⟩ := mints
      rw [ttl_after] at end_
      refine ⟨?_,(m,req,.signIn (some token)),by simp,end_⟩
      rw [keysDrawn,List.filterMap_append,List.filterMap_cons]
      simp [key]
  | signOut | readSession | killSwitch | execution | other => cases mints

theorem length_sessions_le (events : List (Moment × Request × Call)) :
    (after sha256 urlHost options controller events).auth.sessions.length ≤ MAX_SESSIONS := by
  induction events using List.reverseRecOn with
  | nil => exact Nat.zero_le _
  | append_singleton events event ih =>
    rw [after_concat]
    by_cases signs : ∃ token, event.2.2 = .signIn token
    · obtain ⟨m,req,call⟩ := event
      obtain ⟨token,rfl⟩ := signs
      rcases @signIn_cases sha256 urlHost (after sha256 urlHost options controller events) m req
        token with ⟨_,same⟩ | ⟨_,same⟩
      · rw [same]
        exact ih
      · rw [same]
        refine (length_set_le _).trans (length_withRoom_lt ?_)
        exact (List.length_filter_le _ _).trans ih
    · exact ((change _ event).thinned fun token same => signs ⟨token,same⟩).1.length_le.trans ih

theorem held_after {before rest : List (Moment × Request × Call)} {event : Moment × Request × Call} {entry : String × ℤ}
    (minted : Mints sha256 urlHost (after sha256 urlHost options controller before) entry event)
    (forward : (before ++ event :: rest).Pairwise fun a b => a.1.now ≤ b.1.now)
    (distinct : (keysDrawn sha256 (before ++ event :: rest)).Nodup)
    (kept : ∀ later ∈ rest, ¬SignsOut sha256 entry.1 later)
    (few : signedIn sha256 urlHost (after sha256 urlHost options controller (before ++ [event])) rest < MAX_SESSIONS)
    (early : ∀ later ∈ rest, later.1.now < entry.2) :
    Held (after sha256 urlHost options controller (before ++ event :: rest)) entry
      (signedIn sha256 urlHost (after sha256 urlHost options controller (before ++ [event])) rest) := by
  induction rest using List.reverseRecOn with
  | nil =>
    obtain ⟨m,req,call⟩ := event
    cases call with
    | signIn token =>
      cases token with
      | none => cases minted
      | some token =>
        obtain ⟨answer,_,key,end_⟩ := minted
        have drawn : keysDrawn sha256 (before ++ [(m,req,.signIn (some token))]) =
            keysDrawn sha256 before ++ [keyOf sha256 m.id] := by simp [keysDrawn]
        rw [drawn,List.nodup_append] at distinct
        have fresh : ∀ old ∈ (after sha256 urlHost options controller before).auth.sessions, old.1 ≠ keyOf sha256 m.id :=
          fun old found => distinct.2.2 _ (drawn_of_mem options controller found).1 _ (List.mem_singleton_self _)
        have accepted : accepts sha256 urlHost (after sha256 urlHost options controller before)
            (m,req,.signIn (some token)) = true := by rw [accepts,answer]
        rcases @signIn_cases sha256 urlHost (after sha256 urlHost options controller before) m req
          (some token) with ⟨never,_⟩ | ⟨_,same⟩
        · exact absurd (never.symm.trans accepted) Bool.false_ne_true
        · have among : ∀ old ∈ withRoom (prune m.now (after sha256 urlHost options controller before).auth.sessions),
              old ∈ (after sha256 urlHost options controller before).auth.sessions := fun old found =>
            (List.mem_filter.mp (mem_withRoom found)).1
          refine ⟨withRoom (prune m.now (after sha256 urlHost options controller before).auth.sessions),[],?_,
            Nat.le_refl 0,fun old found => ?_,fun other found => ?_⟩
          · rw [after_concat,same,createSession]
            dsimp only
            rw [set_of_absent fun old found => fresh old (among old found),key,← end_]
          · obtain ⟨earlier,found',end'⟩ := (drawn_of_mem options controller (among old found)).2
            rw [end',end_,ttl_after]
            have order := (List.pairwise_append.mp forward).2.2 earlier found' _ (List.mem_singleton_self _)
            exact Int.add_le_add_right order _
          · rw [List.append_nil] at found
            rw [← key]
            exact fresh other (among other found)
    | signOut | readSession | killSwitch | execution | other => cases minted
  | append_singleton rest last ih =>
    rw [signedIn_concat] at few ⊢
    have whole : before ++ event :: (rest ++ [last]) = (before ++ event :: rest) ++ [last] := by simp
    have state : Run.run (step sha256 urlHost) (after sha256 urlHost options controller (before ++ [event])) rest =
        after sha256 urlHost options controller (before ++ event :: rest) := by
      rw [after,after,← Run.run_append]
      simp
    rw [state] at few ⊢
    rw [whole] at forward distinct ⊢
    have held := ih (List.pairwise_append.mp forward).1
      (distinct.sublist ((List.sublist_append_left _ [last]).filterMap _))
      (fun later found => kept later (List.mem_append_left _ found)) (lt_of_le_of_lt (Nat.le_add_right _ _) few)
      (fun later found => early later (List.mem_append_left _ found))
    have soon := early last (List.mem_append_right _ (List.mem_singleton_self _))
    have stays := kept last (List.mem_append_right _ (List.mem_singleton_self _))
    rw [after_concat]
    by_cases signs : ∃ token, last.2.2 = .signIn token
    · obtain ⟨m,req,call⟩ := last
      obtain ⟨token,rfl⟩ := signs
      rcases @signIn_cases sha256 urlHost
        (after sha256 urlHost options controller (before ++ event :: rest)) m req token with ⟨never,same⟩ | ⟨accepted,same⟩
      · rw [never]
        obtain ⟨older,newer,split,length,bounds⟩ := held.split
        exact ⟨older,newer,by rw [same,split],length,bounds⟩
      · rw [accepted,if_pos rfl] at few ⊢
        refine held.create soon few (fun old found => ?_) same
        rw [keysDrawn,List.filterMap_append,List.nodup_append] at distinct
        refine distinct.2.2 _ ?_ _ (List.mem_singleton_self _)
        exact (drawn_of_mem options controller found).1
    · obtain ⟨fewer,lasting⟩ := (@change sha256 urlHost
        (after sha256 urlHost options controller (before ++ event :: rest)) last).thinned fun token same => signs ⟨token,same⟩
      have inside : entry ∈ (after sha256 urlHost options controller (before ++ event :: rest)).auth.sessions := by
        obtain ⟨older,newer,split,_⟩ := held.split
        rw [split]
        simp
      refine (held.sublist fewer (lasting entry inside (fun other found same => ?_) stays)).mono (Nat.le_add_right _ _)
      rw [held.lookup.2 other found same]
      exact soon

/-- While the clock does not go back and no id is drawn twice, a session lasts to its end: unless
somebody signs it out, or sixty-four others are minted after it. There are never more than
sixty-four at once. -/
theorem session_lasts {before rest : List (Moment × Request × Call)} {m : Moment} {req : Request} {token : Option String}
    {end_ now : ℤ} (named : m.id ≠ "")
    (minted : Mints sha256 urlHost (after sha256 urlHost options controller before) (keyOf sha256 m.id,end_)
      (m,req,.signIn token))
    (forward : (before ++ (m,req,.signIn token) :: rest).Pairwise fun a b => a.1.now ≤ b.1.now)
    (present : ∀ later ∈ rest, later.1.now ≤ now) (early : now < end_)
    (distinct : (keysDrawn sha256 (before ++ (m,req,.signIn token) :: rest)).Nodup)
    (kept : ∀ later ∈ rest, ¬SignsOut sha256 (keyOf sha256 m.id) later)
    (few : signedIn sha256 urlHost (after sha256 urlHost options controller (before ++ [(m,req,.signIn token)])) rest <
      MAX_SESSIONS) :
    ((after sha256 urlHost options controller (before ++ (m,req,.signIn token) :: rest)).auth.verifySession sha256 now
      (some m.id)).2 = true ∧
    (after sha256 urlHost options controller (before ++ (m,req,.signIn token) :: rest)).auth.sessions.length ≤
      MAX_SESSIONS := by
  have held := held_after options controller minted forward distinct kept few fun later found =>
    lt_of_le_of_lt (present later found) early
  refine ⟨(verifySession_iff _).mpr ⟨m.id,end_,rfl,named,held.lookup.1,early⟩,length_sessions_le options controller _⟩

end After

end Lasting

section Guessing
variable {sha256 : String → Bytes} {urlHost : String → Option String} {ip : String}

/-- What is left of the guesses of an address in a span of one window from `start`. -/
def left (start : ℤ) : Option Attempts → ℕ
  | none => SESSION_ATTEMPT_MAX
  | some seen => SESSION_ATTEMPT_MAX - seen.n + if start ≤ seen.start then 0 else SESSION_ATTEMPT_MAX

end Guessing

namespace Sample

def digest (text : String) : Bytes := Utf8.encode text.toList

def options : ControlAuthOptions := ⟨some "operator",none,["trading:execute"],none⟩

def controller : PolicyController := .boot Kernel.Sample.policy none

def request (ip : String) : Request :=
  { ip, authorization := some "Bearer operator", cookie := none, contentType := some "application/json", origin := none
    host := none, secFetchSite := none }

def signIn (now : ℤ) (id : String) : Moment × Request × Call := (⟨now,id⟩,request "::1",.signIn (some "operator"))

end Sample

theorem session_lasts_next :
    ((after Sample.digest (fun _ => none) Sample.options Sample.controller
      ([] ++ Sample.signIn 0 "first" :: [Sample.signIn 5 "second"])).auth.verifySession Sample.digest 9 (some "first")).2 =
        true ∧
    (after Sample.digest (fun _ => none) Sample.options Sample.controller
      ([] ++ Sample.signIn 0 "first" :: [Sample.signIn 5 "second"])).auth.sessions.length ≤ MAX_SESSIONS := by
  have minted : Mints Sample.digest (fun _ => none) (after Sample.digest (fun _ => none) Sample.options Sample.controller [])
      (keyOf Sample.digest "first",43200000) (Sample.signIn 0 "first") :=
    ⟨by decide +kernel,by decide +kernel,rfl,rfl⟩
  refine session_lasts Sample.options Sample.controller (by decide) minted (by decide +kernel) (by decide +kernel)
    (by decide) (by decide +kernel) (fun later found => ?_) (by decide +kernel)
  rw [List.mem_singleton] at found
  rw [found]
  exact id

end Console

end RatifyOs.Web
