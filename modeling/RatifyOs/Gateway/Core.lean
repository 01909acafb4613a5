import RatifyOs.Data.Json
import RatifyOs.Data.Result
import RatifyOs.Data.Run
import RatifyOs.Data.Table

/-! `GatewayCore.handle`: the calls as they interleave at their awaits, and the cache that makes
a request idempotent. -/
namespace RatifyOs.Gateway
open Data Data.Result

/-! The frames. -/

/-- `/^[A-Za-z0-9._:-]+$/`, at most 128 characters -/
def identifier (s : String) : Bool :=
  1 ≤ s.length ∧ s.length ≤ 128 ∧ s.toList.all fun c => c.isAlphanum || c ∈ ['.','_',':','-']

/-- `/^\d+\.\d+$/` -/
def isVersion (s : String) : Bool :=
  let (major,rest) := s.toList.span Char.isDigit
  match rest with
  | '.' :: minor => major ≠ [] ∧ minor ≠ [] ∧ minor.all Char.isDigit
  | _ => false

structure RequestFrame where
  version : String
  id : String
  method : String
  idempotencyKey : String
  sessionId : Option String
  runId : Option String
  params : Option Json

/-- `requestFrameSchema`, for an object whose fields have the types of the frame. -/
def RequestFrame.valid (f : RequestFrame) : Bool :=
  isVersion f.version ∧ identifier f.id ∧ identifier f.method ∧ identifier f.idempotencyKey

structure ResponseFrame where
  version : String
  id : String
  ok : Bool
  result : Option Json

structure GatewayError where
  code : String
  message : String
  deriving DecidableEq

structure Principal where
  id : String

inductive PairingState where
  | pending
  | paired
  | revoked
  deriving DecidableEq

structure PairingRecord where
  deviceId : String
  principalId : String
  state : PairingState

structure AuthInput where
  credential : String
  deviceId : Option String

structure GatewayContext where
  principal : Principal
  device : Option PairingRecord

/-- What `handle` is given: a text or a value, its length, and the frame where it has the form
of one. -/
structure Raw where
  text : Bool
  /-- it parses, or it serializes -/
  readable : Bool
  byteLength : ℕ
  frame : Option RequestFrame

structure GatewayConfig where
  supportedVersions : List String
  maxRequestBytes : ℕ
  /-- the registered methods -/
  handlers : List String

/-- What the hash is taken of. -/
structure Hashed where
  method : String
  params : Option Json
  sessionId : Option String
  runId : Option String

def RequestFrame.hashed (f : RequestFrame) : Hashed := ⟨f.method,f.params,f.sessionId,f.runId⟩

section Segments
variable (config : GatewayConfig)

/-- Up to the authentication. -/
def readFrame (raw : Raw) : Except GatewayError RequestFrame := do
  if raw.text then
    reject (raw.byteLength > config.maxRequestBytes) ⟨"REQUEST_TOO_LARGE","request exceeds size limit"⟩
    reject (raw.readable = false) ⟨"INVALID_FRAME","request is not valid JSON"⟩
  else
    reject (raw.readable = false) ⟨"INVALID_FRAME","request is not serializable"⟩
    reject (raw.byteLength > config.maxRequestBytes) ⟨"REQUEST_TOO_LARGE","request exceeds size limit"⟩
  let request ← required (raw.frame.filter RequestFrame.valid) ⟨"INVALID_FRAME","invalid request frame"⟩
  reject (request.version ∉ config.supportedVersions) ⟨"VERSION_NOT_SUPPORTED","unsupported request version"⟩
  return request

/-- `verified` and `device` are what the verifier and the pairing store answer. -/
def authenticate (input : AuthInput) (verified : Except GatewayError (Option Principal))
    (device : Except GatewayError (Option PairingRecord)) : Except GatewayError GatewayContext := do
  let principal ← required (← verified) ⟨"UNAUTHENTICATED","invalid authentication credential"⟩
  match present input.deviceId with
  | none => return ⟨principal,none⟩
  | some _ =>
    let unpaired : GatewayError := ⟨"DEVICE_NOT_PAIRED","device is not paired to this principal"⟩
    let record ← required (← device) unpaired
    reject (record.state ≠ .paired ∨ record.principalId ≠ principal.id) unpaired
    return ⟨principal,some record⟩

end Segments

/-- Whose request it is, in which session, under which key. -/
structure Scope where
  principal : String
  sessionId : Option String
  idempotencyKey : String
  deriving DecidableEq

def scopeOf (request : RequestFrame) (context : GatewayContext) : Scope :=
  ⟨context.principal.id,request.sessionId,request.idempotencyKey⟩

def Scope.key (s : Scope) : String := s.principal ++ ":" ++ s.sessionId.getD "-" ++ ":" ++ s.idempotencyKey

/-! The calls. -/

inductive Phase where
  | authenticating
  | handling (context : GatewayContext)
  | settled

structure Call where
  call : ℕ
  request : RequestFrame
  auth : AuthInput
  phase : Phase

/-- A response in the cache. `source` is no part of the code: it is the scope of the request
that the response was made for. -/
structure Entry where
  hash : String
  response : ResponseFrame
  source : Scope

structure Completed where
  scope : Scope
  id : String
  hash : String

structure Returned where
  scope : Scope
  id : String
  response : ResponseFrame
  source : Scope

/-- The calls and the cache, and a log of what was completed and returned. -/
structure GatewayCore where
  calls : Table Call.call
  idempotency : String → Option Entry
  completed : List Completed
  returned : List Returned

inductive Event where
  | arrives (call : ℕ) (raw : Raw) (auth : AuthInput)
  /-- The verifier and the pairing store have answered; a handler starts in the same segment. -/
  | authenticated (call : ℕ) (verified : Except GatewayError (Option Principal))
      (device : Except GatewayError (Option PairingRecord))
  /-- The handler has settled. -/
  | handled (call : ℕ) (result : Except GatewayError (Option Json))

namespace GatewayCore
variable (config : GatewayConfig) (sha256 : Hashed → String)

def start : GatewayCore := ⟨.empty,fun _ => none,[],[]⟩

def settle (s : GatewayCore) (c : Call) : GatewayCore := { s with calls := s.calls.put { c with phase := .settled } }

/-- The response is in the cache, or the handler runs. -/
def resume (s : GatewayCore) (c : Call) (context : GatewayContext) : GatewayCore :=
  let scope := scopeOf c.request context
  if c.request.method ∉ config.handlers then s.settle c
  else
    match s.idempotency scope.key with
    | some prior =>
      if prior.hash ≠ sha256 c.request.hashed then s.settle c
      else
        let s := s.settle c
        { s with returned := s.returned ++ [⟨scope,c.request.id,prior.response,prior.source⟩] }
    | none => { s with calls := s.calls.put { c with phase := .handling context } }

/-- The handler's result is stored and returned. -/
def finish (s : GatewayCore) (c : Call) (context : GatewayContext) (result : Option Json) : GatewayCore :=
  let scope := scopeOf c.request context
  let hash := sha256 c.request.hashed
  let response : ResponseFrame := ⟨c.request.version,c.request.id,true,result⟩
  let s := s.settle c
  { s with
    idempotency := fun key => if key = scope.key then some ⟨hash,response,scope⟩ else s.idempotency key
    completed := s.completed ++ [⟨scope,c.request.id,hash⟩]
    returned := s.returned ++ [⟨scope,c.request.id,response,scope⟩] }

def step (s : GatewayCore) : Event → GatewayCore
  | .arrives call raw auth =>
    match readFrame config raw with
    | .error _ => s
    | .ok request =>
      match s.calls.insert? ⟨call,request,auth,.authenticating⟩ with
      | some calls => { s with calls }
      | none => s
  | .authenticated call verified device =>
    match s.calls.find? call with
    | some c =>
      match c.phase with
      | .authenticating =>
        match authenticate c.auth verified device with
        | .error _ => s.settle c
        | .ok context => s.resume config sha256 c context
      | _ => s
    | none => s
  | .handled call result =>
    match s.calls.find? call with
    | some c =>
      match c.phase with
      | .handling context =>
        match result with
        | .error _ => s.settle c
        | .ok result => s.finish sha256 c context result
      | _ => s
    | none => s

end GatewayCore

end RatifyOs.Gateway
