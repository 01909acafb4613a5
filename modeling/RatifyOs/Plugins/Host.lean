import RatifyOs.Data.Double
import RatifyOs.Data.Json
import RatifyOs.Data.Spelling
import RatifyOs.Data.Run

/-! Plugin manifests. The schema is strict, so that an input of another shape is refused
before the checks below; the shape is the type here. -/
namespace RatifyOs.Plugins
open Data

section Checks

def lower (c : Char) : Bool := 'a' ≤ c ∧ c ≤ 'z'

def digit (c : Char) : Bool := '0' ≤ c ∧ c ≤ '9'

def letter (c : Char) : Bool := lower c ∨ ('A' ≤ c ∧ c ≤ 'Z')

/-- The parts of a text between the characters of a kind. -/
def parts (separator : Char → Bool) (text : Text) : List Text := text.splitOnP separator

/-- `safePath`; `isAbsolute` asks for a slash in front. -/
def safePath (path : String) : Bool :=
  path ≠ "" ∧ path.toList.head? ≠ some '/' ∧ '\\' ∉ path.toList ∧
    ∀ segment ∈ parts (· = '/') path.toList, segment ≠ [] ∧ segment ≠ ['.'] ∧ segment ≠ ['.','.']

/-- `/^[a-z][a-z0-9_.-]{0,63}$/` -/
def nameText (text : String) : Bool :=
  match text.toList with
  | c :: rest => lower c ∧ rest.length ≤ 63 ∧ rest.all fun d => lower d ∨ digit d ∨ d ∈ ['_','.','-']
  | [] => false

/-- `/^[a-z0-9]+(?:[.-][a-z0-9]+)+$/` and at most 128 characters -/
def idText (text : String) : Bool :=
  let segments := parts (fun c => c ∈ ['.','-']) text.toList
  1 < segments.length ∧ (∀ segment ∈ segments, segment ≠ [] ∧ segment.all fun c => lower c ∨ digit c) ∧ text.length ≤ 128

/-- `/^\d+\.\d+\.\d+(?:-[0-9A-Za-z.-]+)?$/` -/
def versionText (text : String) : Bool :=
  let number := text.toList.takeWhile (· ≠ '-')
  let label := text.toList.dropWhile (· ≠ '-')
  let numbers := parts (· = '.') number
  numbers.length = 3 ∧ (∀ n ∈ numbers, n ≠ [] ∧ n.all digit) ∧
    (label = [] ∨ label.length > 1 ∧ label.all fun c => letter c ∨ digit c ∨ c ∈ ['.','-'])

/-- `/^[a-f0-9]{64}$/` -/
def digestText (text : String) : Bool := text.length = 64 ∧ text.toList.all fun c => digit c ∨ ('a' ≤ c ∧ c ≤ 'f')

/-- `/^[A-Z_][A-Z0-9_]{0,127}$/` -/
def envText (text : String) : Bool :=
  match text.toList with
  | c :: rest => (('A' ≤ c ∧ c ≤ 'Z') ∨ c = '_') ∧ rest.length ≤ 127 ∧
    rest.all fun d => ('A' ≤ d ∧ d ≤ 'Z') ∨ digit d ∨ d = '_'
  | [] => false

/-- The labels of a host name, each of at most 63 characters and without a hyphen at its ends. -/
def hostText (text : String) : Bool :=
  1 ≤ text.length ∧ text.length ≤ 253 ∧ ∀ label ∈ parts (· = '.') text.toList,
    label ≠ [] ∧ label.length ≤ 63 ∧ label.head? ≠ some '-' ∧ label.getLast? ≠ some '-' ∧
      label.all fun c => lower c ∨ digit c ∨ c = '-'

/-- `z.number().int().min(low).max(high)` -/
def integerWithin (low high : ℕ) (n : Double) : Bool := n.isInteger ∧ .finite low ≤ n ∧ n ≤ .finite high

end Checks

section Capabilities
open Data.Regex

def delimiter (c : Char) : Bool := c ∈ ['.','_','-']

/-- The words of the filter. -/
def harmful : Data.Regex := oneOf [
  sequence [literal "signin",optional (literal "g")],
  literal "wallet",
  literal "broadcast",
  sequence [literal "raw",optional (one fun c => c ∉ ['\n','\r','\u2028','\u2029']),literal "transaction"],
  literal "policy",
  literal "approval",
  literal "memory",
  sequence [literal "skill",optional (literal "s")],
  sequence [literal "job",optional (literal "s")]]

/-- `/(^|[._-])(…)([._-]|$)/i.test(x)`, with the words in the middle -/
def forbidden (x : String) : Bool :=
  (places none x.toList).any fun p => p.1.all delimiter ∧ (ends harmful p).any fun q => q.2.head?.all delimiter

def cap (x : String) : Bool := nameText x ∧ ¬forbidden x

end Capabilities

inductive Effect where
  | read
  | write
  | external
  deriving DecidableEq

structure PluginTool where
  name : String
  effect : Effect
  capabilities : List String
  deriving DecidableEq

/-- A host that may be reached over TLS, and nothing else. -/
structure PluginHostname where
  hostname : String
  port : Double
  deriving DecidableEq

structure PluginManifest where
  id : String
  version : String
  sha256 : String
  provenance : String
  agent : String
  node : String
  tools : List PluginTool
  filesystemRead : List String
  filesystemWrite : List String
  network : List PluginHostname
  env : List String
  cpuMs : Double
  memoryMb : Double
  timeoutMs : Double
  deriving DecidableEq

def PluginTool.valid (t : PluginTool) : Bool :=
  nameText t.name ∧ 1 ≤ t.capabilities.length ∧ t.capabilities.length ≤ 32 ∧ ∀ x ∈ t.capabilities, cap x

section Parse
variable (isUrl : String → Bool)

/-- What zod checks of a manifest; the parser of addresses is a parameter. -/
def PluginManifest.valid (m : PluginManifest) : Bool :=
  idText m.id ∧ versionText m.version ∧ digestText m.sha256 ∧ isUrl m.provenance ∧ (codeUnits m.provenance).length ≤ 2048 ∧
    (∀ range ∈ [m.agent,m.node], range ≠ "" ∧ (codeUnits range).length ≤ 128) ∧
    1 ≤ m.tools.length ∧ m.tools.length ≤ 64 ∧ (∀ t ∈ m.tools, t.valid) ∧
    (∀ paths ∈ [m.filesystemRead,m.filesystemWrite], paths.length ≤ 64 ∧ ∀ path ∈ paths, safePath path) ∧
    m.network.length ≤ 64 ∧ (∀ host ∈ m.network, hostText host.hostname ∧ integerWithin 1 65535 host.port) ∧
    m.env.length ≤ 64 ∧ (∀ name ∈ m.env, envText name) ∧
    integerWithin 1 3600000 m.cpuMs ∧ integerWithin 1 4096 m.memoryMb ∧ integerWithin 1 3600000 m.timeoutMs

/-- What the schema finds is listed in the error; the manifest itself is frozen, not changed. -/
def parsePluginManifest (m : PluginManifest) : Option PluginManifest := if m.valid isUrl then some m else none

end Parse

def PluginManifest.capabilities (m : PluginManifest) : List String := m.tools.flatMap (·.capabilities)

/-! What a plugin may ask for: the words that no capability of an accepted manifest should
hold, and the requests that reach the mediator. -/
open Data Data.Regex

/-- The word stands in the text between delimiters or ends. -/
def Contains (word text : Text) : Prop :=
  ∃ before after, text = before ++ word ++ after ∧ before.getLast?.all delimiter = true ∧
    after.head?.all delimiter = true

theorem plain_harmful : Plain harmful := by
  simp only [harmful,Data.Regex.oneOf,Data.Regex.sequence,Data.Regex.optional,List.foldr_cons,List.foldr_nil,Plain,plain_literal,and_self]

theorem forbidden_iff {x : String} : forbidden x = true ↔ ∃ word, Spells harmful word ∧ Contains word x.toList := by
  simp only [forbidden,List.any_eq_true,decide_eq_true_eq]
  constructor
  · rintro ⟨⟨b,rest⟩,place,first,⟨b',after⟩,match_,last⟩
    obtain ⟨before,split,rfl⟩ := mem_places.mp place
    obtain ⟨word,spelled,rfl⟩ := (mem_ends_iff plain_harmful _ rest after).mp ⟨b',match_⟩
    rw [Option.or_none] at first
    exact ⟨word,spelled,before,after,by rw [split,List.append_assoc],first,last⟩
  · rintro ⟨word,spelled,before,after,split,first,last⟩
    rw [List.append_assoc] at split
    obtain ⟨b',match_⟩ := (mem_ends_iff plain_harmful (before.getLast?.or none) (word ++ after) after).mpr ⟨word,spelled,rfl⟩
    exact ⟨_,mem_places.mpr ⟨before,split,rfl⟩,by simpa using first,_,match_,last⟩

/-- The words of the filter, with the spellings of a raw transaction. -/
def filteredWords : List String :=
  ["signing","wallet","broadcast","policy","approval","memory","skill","skills","job","jobs",
    "rawtransaction","raw.transaction","raw_transaction","raw-transaction"]

def harmfulWords : List String := ["sign","signer"] ++ filteredWords

theorem spells_filtered : ∀ word ∈ filteredWords, Spells harmful word.toList := by
  have read : ∀ word ∈ filteredWords, ∃ q ∈ ends harmful (none,word.toList), q.2 = [] := by decide
  intro word inside
  obtain ⟨⟨b,rest⟩,match_,rfl⟩ := read word inside
  obtain ⟨whole,spelled,same⟩ := (mem_ends_iff plain_harmful none word.toList []).mp ⟨b,match_⟩
  rw [List.append_nil] at same
  rwa [same]

theorem not_contains_of_cap {x : String} (accepted : cap x = true) :
    ∀ word ∈ filteredWords, ¬Contains word.toList x.toList := by
  intro word inside contains
  have filtered := forbidden_iff.mpr ⟨word.toList,spells_filtered word inside,contains⟩
  simp [cap,filtered] at accepted

theorem cap_of_accepted {isUrl : String → Bool} {m : PluginManifest} (accepted : parsePluginManifest isUrl m = some m) :
    ∀ x ∈ m.capabilities, cap x = true := by
  have valid : m.valid isUrl = true := by
    by_contra invalid
    simp [parsePluginManifest,invalid] at accepted
  intro x inside
  obtain ⟨t,there,declared⟩ := List.mem_flatMap.mp inside
  simp only [PluginManifest.valid,decide_eq_true_eq] at valid
  obtain ⟨_,_,_,_,_,_,_,_,tools,_⟩ := valid
  have tool := tools t there
  simp only [PluginTool.valid,decide_eq_true_eq] at tool
  exact tool.2.2.2 x declared

section Host
variable {Input : Type}

structure PluginRequest (Input : Type) where
  capability : String
  operation : String
  input : Input

inductive InvokeOutcome where
  | returned
  | failed
  | aborted
  deriving DecidableEq

/-- The crash counts, the plugins that were started, and what was passed to `mediate`. -/
structure PluginHost (Input : Type) where
  crashes : String → ℕ
  plugins : List PluginManifest
  mediated : List (PluginRequest Input × PluginManifest)

/-- A plugin is named by the order of the starts; its handle stays usable when it is closed. -/
inductive HostCall (Input : Type) where
  | start (m : PluginManifest) (spawned : Bool)
  | request (plugin : ℕ) (r : PluginRequest Input)
  | invoke (plugin : ℕ) (tool : String) (outcome : InvokeOutcome)
  | close (plugin : ℕ)

namespace PluginHost

def initial : PluginHost Input := ⟨fun _ => 0,[],[]⟩

section Step
variable (quarantineThreshold : Option Double)

def isQuarantined (h : PluginHost Input) (id : String) : Bool :=
  quarantineThreshold.getD 3 ≤ .finite (h.crashes id)

def start (h : PluginHost Input) (m : PluginManifest) (spawned : Bool) : PluginHost Input :=
  if h.isQuarantined quarantineThreshold m.id then h
  else if spawned then { h with plugins := h.plugins ++ [m] } else h

def request (h : PluginHost Input) (m : PluginManifest) (r : PluginRequest Input) : PluginHost Input :=
  if r.capability ∉ m.capabilities then h else { h with mediated := (r,m) :: h.mediated }

def invoke (h : PluginHost Input) (m : PluginManifest) (tool : String) (outcome : InvokeOutcome) : PluginHost Input :=
  if tool ∉ m.tools.map (·.name) then h
  else if outcome = .failed then { h with crashes := Function.update h.crashes m.id (h.crashes m.id + 1) } else h

def step (h : PluginHost Input) : HostCall Input → PluginHost Input
  | .start m spawned => h.start quarantineThreshold m spawned
  | .request plugin r => (h.plugins[plugin]?).elim h fun m => h.request m r
  | .invoke plugin tool outcome => (h.plugins[plugin]?).elim h fun m => h.invoke m tool outcome
  | .close _ => h

end Step

/-- Every request that was passed on is of a plugin that was started and declares it. -/
def Declared (h : PluginHost Input) : Prop :=
  ∀ made ∈ h.mediated, made.2 ∈ h.plugins ∧ made.1.capability ∈ made.2.capabilities

theorem declared_start {h : PluginHost Input} (declared : h.Declared) (quarantineThreshold : Option Double)
    (m : PluginManifest) (spawned : Bool) : (h.start quarantineThreshold m spawned).Declared := by
  unfold start
  split
  · exact declared
  · split
    · intro made inside
      obtain ⟨there,allowed⟩ := declared made inside
      exact ⟨List.mem_append_left _ there,allowed⟩
    · exact declared

theorem declared_request {h : PluginHost Input} (declared : h.Declared) {m : PluginManifest} (started : m ∈ h.plugins)
    (r : PluginRequest Input) : (h.request m r).Declared := by
  unfold request
  split
  · exact declared
  · rename_i allowed
    intro made inside
    rcases List.mem_cons.mp inside with rfl | old
    · exact ⟨started,not_not.mp allowed⟩
    · exact declared made old

theorem declared_step {h : PluginHost Input} (declared : h.Declared) (quarantineThreshold : Option Double)
    (call : HostCall Input) : (h.step quarantineThreshold call).Declared := by
  cases call with
  | start m spawned => exact declared_start declared quarantineThreshold m spawned
  | request plugin r =>
    cases found : h.plugins[plugin]? with
    | none => simpa only [step,found,Option.elim_none] using declared
    | some m =>
      simp only [step,found,Option.elim_some]
      exact declared_request declared (List.mem_of_getElem? found) r
  | invoke plugin tool outcome =>
    cases found : h.plugins[plugin]? with
    | none => simpa only [step,found,Option.elim_none] using declared
    | some m =>
      simp only [step,found,Option.elim_some,invoke]
      split
      · exact declared
      · split
        · exact declared
        · exact declared
  | close plugin => exact declared

theorem declared_run {h : PluginHost Input} (declared : h.Declared) (quarantineThreshold : Option Double)
    (calls : List (HostCall Input)) : (Run.run (step quarantineThreshold) h calls).Declared := by
  induction calls generalizing h with
  | nil => exact declared
  | cons call calls ih => exact ih (declared_step declared quarantineThreshold call)

theorem declared_initial : (initial : PluginHost Input).Declared := by
  intro made inside
  cases inside

end PluginHost

end Host

/-- No capability holds a harmful word, and only declared capabilities reach the mediator. -/
structure Confined (m : PluginManifest) : Prop where
  harmless : ∀ x ∈ m.capabilities, ∀ word ∈ harmfulWords, ¬Contains word.toList x.toList
  mediated : ∀ (Input : Type) (quarantineThreshold : Option Double) (calls : List (HostCall Input)),
    ∀ made ∈ (Run.run (PluginHost.step quarantineThreshold) PluginHost.initial calls).mediated, made.2 = m →
      ∃ t ∈ m.tools, made.1.capability ∈ t.capabilities

/-- An accepted plugin is confined exactly when none of its capabilities holds `sign` or
`signer`, the words that the filter misses. -/
theorem confined_iff (isUrl : String → Bool) (m : PluginManifest) (accepted : parsePluginManifest isUrl m = some m) :
    Confined m ↔ ∀ x ∈ m.capabilities, ∀ word ∈ ["sign","signer"], ¬Contains word.toList x.toList := by
  constructor
  · intro confined x inside word missed
    exact confined.harmless x inside word (List.mem_append_left _ missed)
  · intro clean
    constructor
    · intro x inside word harmful_
      rcases List.mem_append.mp harmful_ with missed | filtered
      · exact clean x inside word missed
      · exact not_contains_of_cap (cap_of_accepted accepted x inside) word filtered
    · rintro Input quarantineThreshold calls made inside rfl
      exact List.mem_flatMap.mp
        (PluginHost.declared_run PluginHost.declared_initial quarantineThreshold calls made inside).2

namespace Sample

def manifest (capability : String) : PluginManifest where
  id := "com.acme.prices"
  version := "1.2.3"
  sha256 := "aaaaaaaaaaaaaaaaaaaaaaaaaaaaaaaaaaaaaaaaaaaaaaaaaaaaaaaaaaaaaaaa"
  provenance := "https://registry.example/acme/prices"
  agent := ">=1.0.0 <2.0.0"
  node := ">=22"
  tools := [⟨"quote",.read,[capability]⟩]
  filesystemRead := ["data/public"]
  filesystemWrite := ["data/cache"]
  network := [⟨"api.example.com",443⟩]
  env := ["API_REGION"]
  cpuMs := 1000
  memoryMb := 64
  timeoutMs := 5000

end Sample

open Sample in
theorem confined_quote : Confined (manifest "quote") := by
  apply (confined_iff (fun _ => true) (manifest "quote") (by decide +kernel)).mpr
  intro x inside word missed
  have one : x = "quote" := List.mem_singleton.mp inside
  subst one
  rintro ⟨before,after,split,_,_⟩
  have shorter : 's' ∈ "quote".toList := by
    rw [split]
    rcases List.mem_cons.mp missed with rfl | missed
    · simp
    · rw [List.mem_singleton.mp missed]
      simp
  exact absurd shorter (by decide)

open Sample in
/-- A capability to sign. -/
theorem sign_declared : ¬∀ (isUrl : String → Bool) (m : PluginManifest), parsePluginManifest isUrl m = some m →
    ∀ x ∈ m.capabilities, ∀ word ∈ harmfulWords, ¬Contains word.toList x.toList := by
  intro harmless
  have read : parsePluginManifest (fun _ => true) (manifest "tx.sign") = some (manifest "tx.sign") := by decide +kernel
  exact harmless _ _ read "tx.sign" (.head _) "sign" (.head _) ⟨"tx.".toList,[],by decide,by decide,rfl⟩

end RatifyOs.Plugins
