import RatifyOs.Data.Numeral
import RatifyOs.Data.Run
import RatifyOs.Data.Utf8
import RatifyOs.Kernel.Switch

/-! The operator console: its sessions, what a request has to present, and the routes that change
what the kernel may do. -/
namespace RatifyOs.Web
open Data Kernel

section Headers

/-- `Buffer.from(text,"hex")`: as far as there are pairs of digits. -/
def ofHex : Text → Bytes
  | c :: d :: rest =>
    match Text.digit? 16 c, Text.digit? 16 d with
    | some high, some low => UInt8.ofNat (high * 16 + low) :: ofHex rest
    | _, _ => []
  | _ => []

def percentDecoded : Text → Option Bytes
  | [] => some []
  | '%' :: c :: d :: rest => do
    let high ← Text.digit? 16 c
    let low ← Text.digit? 16 d
    let rest ← percentDecoded rest
    return UInt8.ofNat (high * 16 + low) :: rest
  | '%' :: _ => none
  | c :: rest => do
    let rest ← percentDecoded rest
    return String.utf8EncodeChar c ++ rest

/-- `decodeURIComponent`; `none` throws. -/
def decodeURIComponent (text : Text) : Option Text :=
  (percentDecoded text).bind fun bytes =>
    let decoded := Utf8.decode bytes
    if Utf8.encode decoded = bytes then some decoded else none

def SESSION_COOKIE : String := "ari_session"

/-- The first part of a cookie header with this name; `none` throws. -/
def readCookie (header : Option String) (name : String) : Option (Option String) :=
  match header.bind fun header => (header.toList.splitOn ';').find? named with
  | none => some none
  | some part => (decodeURIComponent (Text.trim (part.drop (part.idxOf '=' + 1)))).map fun value => some (String.ofList value)
where
  named (part : Text) : Bool := '=' ∈ part ∧ Text.trim (part.take (part.idxOf '=')) = name.toList

/-- A header that is there and not empty. -/
def filled (header : Option String) : Option String := header.filter (· ≠ "")

end Headers

section Auth

structure ControlAuthOptions where
  bearerToken : Option String
  bearerTokenSha256 : Option String
  scopes : List String
  sessionTtlMs : Option ℤ

def DEFAULT_TTL_MS : ℤ := 12 * 60 * 60 * 1000

def MAX_SESSIONS : ℕ := 64

structure ControlAuth where
  expected : Option Bytes
  scopes : List String
  ttl : ℤ
  /-- By the digest of its id, when a session expires; in the order of a `Map`. -/
  sessions : List (String × ℤ)

variable (sha256 : String → Bytes)

namespace ControlAuth

def make (options : ControlAuthOptions) : ControlAuth where
  expected := match filled options.bearerTokenSha256, filled options.bearerToken with
    | some hex, _ => some (ofHex hex.toList)
    | none, some token => some (sha256 token)
    | none, none => none
  scopes := options.scopes
  ttl := options.sessionTtlMs.getD DEFAULT_TTL_MS
  sessions := []

def configured (auth : ControlAuth) : Bool := auth.expected.isSome

def hasScope (auth : ControlAuth) (scope : String) : Bool := scope ∈ auth.scopes ∨ "agent:admin" ∈ auth.scopes

/-- The digests have one length and the same bytes. -/
def verifyToken (auth : ControlAuth) (token : String) : Bool :=
  match auth.expected with
  | none => false
  | some expected => token ≠ "" ∧ sha256 token = expected

def verifyAuthorizationHeader (auth : ControlAuth) (header : Option String) : Bool :=
  match header with
  | none => false
  | some header =>
    "Bearer ".toList <+: header.toList ∧ auth.verifyToken sha256 (String.ofList (Text.trim (header.toList.drop 7)))

def keyOf (id : String) : String := (sha256 id).toHex

/-- `Map.set`: a key that is there keeps its place. -/
def set (sessions : List (String × ℤ)) (key : String) (expiresAt : ℤ) : List (String × ℤ) :=
  if key ∈ sessions.map (·.1) then sessions.map fun entry => if entry.1 = key then (key,expiresAt) else entry
  else sessions ++ [(key,expiresAt)]

def delete (sessions : List (String × ℤ)) (key : String) : List (String × ℤ) := sessions.filter (·.1 ≠ key)

/-- `entries.sort((a, b) => a[1] - b[1])[0]`: of those that expire first, the first. -/
def oldest : List (String × ℤ) → Option (String × ℤ)
  | [] => none
  | entry :: rest =>
    match oldest rest with
    | none => some entry
    | some other => if other.2 < entry.2 then some other else some entry

def prune (now : ℤ) (sessions : List (String × ℤ)) : List (String × ℤ) := sessions.filter fun entry => now < entry.2

/-- The oldest makes room when there are too many. -/
def withRoom (sessions : List (String × ℤ)) : List (String × ℤ) :=
  if MAX_SESSIONS ≤ sessions.length then
    match oldest sessions with
    | some entry => delete sessions entry.1
    | none => sessions
  else sessions

/-- `id` is what `randomBytes` gave. -/
def createSession (auth : ControlAuth) (now : ℤ) (id : String) : ControlAuth × ℤ :=
  let expiresAt := now + auth.ttl
  ({ auth with sessions := set (withRoom (prune now auth.sessions)) (keyOf sha256 id) expiresAt },expiresAt)

def verifySession (auth : ControlAuth) (now : ℤ) (id : Option String) : ControlAuth × Bool :=
  match filled id with
  | none => (auth,false)
  | some id =>
    let key := keyOf sha256 id
    match auth.sessions.lookup key with
    | none => (auth,false)
    | some expiresAt =>
      if expiresAt ≤ now then ({ auth with sessions := delete auth.sessions key },false) else (auth,true)

def revokeSession (auth : ControlAuth) (id : Option String) : ControlAuth :=
  match filled id with
  | none => auth
  | some id => { auth with sessions := delete auth.sessions (keyOf sha256 id) }

end ControlAuth

end Auth

section Console

structure Request where
  ip : String
  authorization : Option String
  cookie : Option String
  contentType : Option String
  origin : Option String
  host : Option String
  secFetchSite : Option String

/-- The clock, and the id that a session would get. -/
structure Moment where
  now : ℤ
  id : String

/-- What a route is asked for; a field of another type than the route wants is absent. -/
inductive Call where
  | signIn (token : Option String)
  | signOut
  | readSession
  | killSwitch (engaged : Option Bool)
  | execution (enabled : Option Bool)
  /-- A route of which only the guards are of interest: its scope, and whether it is for changes. -/
  | other (scope : String) (writes : Bool)

inductive Answer where
  | refused (status : ℕ) (code message : String)
  | signedIn (id : String) (expiresAt : ℤ) (scopes : List String)
  | signedOut
  | session (configured authenticated : Bool) (scopes : List String)
  | policy (executionEnabled killSwitch enforced : Bool)
  /-- The guards have let the request through to the handler. -/
  | admitted
  deriving DecidableEq

structure Attempts where
  n : ℕ
  start : ℤ

def SESSION_ATTEMPT_WINDOW_MS : ℤ := 60000

def SESSION_ATTEMPT_MAX : ℕ := 10

structure Console where
  auth : ControlAuth
  attempts : String → Option Attempts
  controller : PolicyController

def CONTROL_SCOPES_policy : String := "trading:execute"

def unreadable : Answer := .refused 500 "INTERNAL_ERROR" "Unexpected server error"

def notConfigured : Answer := .refused 401 "AUTH_NOT_CONFIGURED"
  "this daemon has no API credential configured, so the console cannot be authenticated; set API_BEARER_TOKEN or API_BEARER_TOKEN_SHA256 and restart"

/-- `urlHost` is `new URL(origin).host`, where the origin is a URL. -/
def isSameOrigin (urlHost : String → Option String) (req : Request) : Bool :=
  if (filled req.secFetchSite).any fun site => site ≠ "same-origin" ∧ site ≠ "none" then false
  else match filled req.origin with
    | none => true
    | some origin => (urlHost origin).any fun host => some host = req.host

namespace Console
variable (sha256 : String → Bytes) (urlHost : String → Option String)

/-- A bearer token, or else the session of the cookie; `none` throws. -/
def authenticated (c : Console) (now : ℤ) (req : Request) : Option (Console × Bool) :=
  if c.auth.configured = false then some (c,false)
  else if c.auth.verifyAuthorizationHeader sha256 req.authorization then some (c,true)
  else (readCookie req.cookie SESSION_COOKIE).map fun id =>
    let (auth,valid) := c.auth.verifySession sha256 now id
    ({ c with auth },valid)

/-- The answer that refuses the request, if one does. -/
def guard (c : Console) (now : ℤ) (req : Request) (scope : String) : Console × Option Answer :=
  if c.auth.configured = false then (c,some notConfigured)
  else match c.authenticated sha256 now req with
    | none => (c,some unreadable)
    | some (c,false) => (c,some (.refused 401 "UNAUTHORIZED" "Authentication required"))
    | some (c,true) =>
      if c.auth.hasScope scope then (c,none) else (c,some (.refused 403 "FORBIDDEN" s!"Missing {scope}"))

def writable (req : Request) : Option Answer :=
  if ¬"application/json".toList <+: (req.contentType.getD "").toList.map Char.toLower then
    some (.refused 415 "UNSUPPORTED_MEDIA_TYPE" "requests that change state must be application/json")
  else if isSameOrigin urlHost req = false then some (.refused 403 "CROSS_ORIGIN" "cross-origin request refused")
  else none

/-- The attempts of an address with one more. -/
def attempted (seen : Option Attempts) (now : ℤ) : Attempts :=
  match seen with
  | none => ⟨1,now⟩
  | some seen => if SESSION_ATTEMPT_WINDOW_MS ≤ now - seen.start then ⟨1,now⟩ else ⟨seen.n + 1,seen.start⟩

def signIn (c : Console) (m : Moment) (req : Request) (token : Option String) : Console × Answer :=
  match writable urlHost req with
  | some refusal => (c,refusal)
  | none =>
    if c.auth.configured = false then (c,.refused 401 "AUTH_NOT_CONFIGURED"
      "this daemon has no API credential configured; set API_BEARER_TOKEN or API_BEARER_TOKEN_SHA256 and restart")
    else
      let window := attempted (c.attempts req.ip) m.now
      let c := { c with attempts := Function.update c.attempts req.ip (some window) }
      if SESSION_ATTEMPT_MAX < window.n then (c,.refused 429 "RATE_LIMITED" "too many sign-in attempts")
      else if token.any (c.auth.verifyToken sha256) = false then (c,.refused 401 "UNAUTHORIZED" "token rejected")
      else
        let (auth,expiresAt) := c.auth.createSession sha256 m.now m.id
        ({ c with auth, attempts := Function.update c.attempts req.ip none },.signedIn m.id expiresAt c.auth.scopes)

def signOut (c : Console) (req : Request) : Console × Answer :=
  match readCookie req.cookie SESSION_COOKIE with
  | none => (c,unreadable)
  | some id => ({ c with auth := c.auth.revokeSession sha256 id },.signedOut)

/-- The request is authenticated twice over. -/
def readSession (c : Console) (m : Moment) (req : Request) : Console × Answer :=
  match c.authenticated sha256 m.now req with
  | none => (c,unreadable)
  | some (c,valid) =>
    match c.authenticated sha256 m.now req with
    | none => (c,unreadable)
    | some (c,again) => (c,.session c.auth.configured valid (if again then c.auth.scopes else []))

def policyRoute (c : Console) (m : Moment) (req : Request) (field : String) (value : Option Bool)
    (apply : Bool → Except PolicyControlError PolicyController) : Console × Answer :=
  match c.guard sha256 m.now req CONTROL_SCOPES_policy with
  | (c,some refusal) => (c,refusal)
  | (c,none) =>
    match writable urlHost req with
    | some refusal => (c,refusal)
    | none =>
      match value with
      | none => (c,.refused 400 "VALIDATION_ERROR" s!"{field} must be a boolean")
      | some value =>
        match apply value with
        | .error e => (c,.refused 409 e.code e.message)
        | .ok controller =>
          ({ c with controller },.policy controller.policy.executionEnabled controller.policy.killSwitch controller.enforced)

def other (c : Console) (m : Moment) (req : Request) (scope : String) (writes : Bool) : Console × Answer :=
  match c.guard sha256 m.now req scope with
  | (c,some refusal) => (c,refusal)
  | (c,none) =>
    if writes then
      match writable urlHost req with
      | some refusal => (c,refusal)
      | none => (c,.admitted)
    else (c,.admitted)

/-- One request, handled to its end. -/
def handle (c : Console) : Moment × Request × Call → Console × Answer
  | (m,req,.signIn token) => c.signIn sha256 urlHost m req token
  | (_,req,.signOut) => c.signOut sha256 req
  | (m,req,.readSession) => c.readSession sha256 m req
  | (m,req,.killSwitch engaged) => c.policyRoute sha256 urlHost m req "engaged" engaged c.controller.setKillSwitch
  | (m,req,.execution enabled) => c.policyRoute sha256 urlHost m req "enabled" enabled c.controller.setExecutionEnabled
  | (m,req,.other scope writes) => c.other sha256 urlHost m req scope writes

def step (c : Console) (event : Moment × Request × Call) : Console := (c.handle sha256 urlHost event).1

/-- The console as it is mounted. -/
def mounted (options : ControlAuthOptions) (controller : PolicyController) : Console :=
  ⟨.make sha256 options,fun _ => none,controller⟩

def after (options : ControlAuthOptions) (controller : PolicyController) (events : List (Moment × Request × Call)) :
    Console :=
  Run.run (step sha256 urlHost) (mounted sha256 options controller) events

end Console

end Console

end RatifyOs.Web
