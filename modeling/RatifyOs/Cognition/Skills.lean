import Mathlib.Data.List.Perm.Basic
import RatifyOs.Data.Collation
import RatifyOs.Data.Lines
import RatifyOs.Data.Json
import RatifyOs.Data.Result
import RatifyOs.Data.Table
import RatifyOs.Data.Utf8

/-! The checksum of a skill: its manifest and support files, read as text and hashed together. -/
namespace RatifyOs.Cognition.Skills
open Data Delimited Utf8

def nul : Char := Char.ofNat 0
def backslash : Char := Char.ofNat 92

inductive Platform where
  | posix
  | win32

def Platform.sep : Platform → Char
  | .posix => '/'
  | .win32 => backslash

/-- What a file may be called, on any platform. -/
def FileName := { name : Text // '/' ∉ name ∧ nul ∉ name }

inductive EntryKind where
  | file (content : Bytes)
  | symbolicLink
  | other

/-- An entry that `readdir` gives, with the names on the way to it. -/
structure Dirent where
  path : List FileName
  kind : EntryKind

structure Listing where
  entries : List Dirent
  distinct : (entries.map Dirent.path).Nodup

inductive SupportDirectory where
  | absent
  | symbolicLink
  | notDirectory
  | entries (listing : Listing)

inductive Manifest where
  | absent
  | symbolicLink
  | notFile
  | file (content : Bytes)

structure SkillDirectory where
  manifest : Manifest
  support : Text → SupportDirectory

def SUPPORT : List Text := ["references".toList,"templates".toList,"scripts".toList,"assets".toList]
def MAX_MANIFEST : ℕ := 256 * 1024
def MAX_FILE : ℕ := 1024 * 1024
def MAX_FILES : ℕ := 256

/-- What is kept of the frontmatter. -/
structure Frontmatter where
  name : Text
  version : Text

structure Parsed where
  name : Text
  version : Text
  content : Text

/-- `text.indexOf(part,start)` -/
def indexOf (part text : Text) (start : ℕ) : Option ℕ :=
  (List.range (text.length + 1)).find? fun i => start ≤ i ∧ part.isPrefixOf (text.drop i)

/-- `frontmatter` stands for `parseDocument` and what is asked of the fields. -/
def parse (frontmatter : Text → Except String Frontmatter) (text : Text) : Except String Parsed := do
  Result.reject ((encode text).length > MAX_MANIFEST) "Skill manifest exceeds size limit"
  Result.reject (¬"---\n".toList.isPrefixOf text) "Skill must have YAML frontmatter"
  let stop ← Result.required (indexOf "\n---\n".toList text 4) "Unterminated frontmatter"
  let fields ← frontmatter ((text.take stop).drop 4)
  return ⟨fields.name,fields.version,text.drop (stop + 5)⟩

/-- `readNoFollow` of a regular file. -/
def readNoFollow (content : Bytes) (max : ℕ) : Except String Text := do
  Result.reject (content.length > max) "File exceeds size limit"
  return decode content

def posixKey (path : Text) : Text := path.map fun c => if c = backslash then '/' else c

/-- A support file: the names from the skill's directory, and what it has. -/
abbrev SupportFile := List Text × Bytes

abbrev SupportMap := Table (Prod.fst : Text × Text → Text)

/-- `out.set(key,value)`: a key that is there keeps its place. -/
def SupportMap.set (out : SupportMap) (r : Text × Text) : SupportMap := (out.insert? r).getD (out.put r)

def key (platform : Platform) (f : SupportFile) : Text := posixKey (join platform.sep f.1)

def addFile (platform : Platform) (out : SupportMap) (f : SupportFile) : Except String SupportMap := do
  Result.reject (out.rows.length ≥ MAX_FILES) "Supporting file count limit exceeded"
  let value ← readNoFollow f.2 MAX_FILE
  return SupportMap.set out (key platform f,value)

def fileOf (top : Text) (e : Dirent) : Option SupportFile :=
  match e.kind with
  | .file content => some (top :: e.path.map Subtype.val,content)
  | _ => none

def supportFiles (platform : Platform) (d : SkillDirectory) : Except String SupportMap :=
  SUPPORT.foldlM (fun out top =>
    match d.support top with
    | .absent => return out
    | .symbolicLink => throw "Symlink supporting directory rejected"
    | .notDirectory => throw "ENOTDIR"
    | .entries listing => listing.entries.foldlM (fun out e =>
      match fileOf top e with
      | some f => addFile platform out f
      | none => return out) out) .empty

section Checksum
variable (sha256 : Bytes → String) (locale : Collation) (frontmatter : Text → Except String Frontmatter)

def ordered (files : SupportMap) : List (Text × Text) :=
  files.rows.insertionSort fun a b => locale.compare (String.ofList a.1) (String.ofList b.1) ≤ 0

/-- The text that is hashed. -/
def hashed (text : Text) (files : SupportMap) : Text :=
  "SKILL.md".toList ++ delimited nul (text :: (ordered locale files).flatMap fun f => [f.1,f.2])

def digest (text : Text) (files : SupportMap) : String := sha256 (encode (hashed locale text files))

structure Item where
  text : Text
  parsed : Parsed
  support : SupportMap
  digest : String

/-- What `selected` makes of a skill's directory. -/
def item (platform : Platform) (name : Text) (d : SkillDirectory) : Except String (Option Item) :=
  match d.manifest with
  | .absent => return none
  | .symbolicLink => throw "Symlink manifest rejected"
  | .notFile => throw "Path is not a regular file"
  | .file content => do
    let text ← readNoFollow content MAX_MANIFEST
    let parsed ← parse frontmatter text
    Result.reject (parsed.name ≠ name) ("Skill directory/name mismatch: " ++ String.ofList name)
    let support ← supportFiles platform d
    return some ⟨text,parsed,support,digest sha256 locale text support⟩

end Checksum

/-- The regular files, as they are come upon. -/
def SupportDirectory.files (top : Text) : SupportDirectory → List SupportFile
  | .entries listing => listing.entries.filterMap (fileOf top)
  | _ => []

def SkillDirectory.files (d : SkillDirectory) : List SupportFile := SUPPORT.flatMap fun top => (d.support top).files top

def SupportDirectory.Readable : SupportDirectory → Prop
  | .symbolicLink | .notDirectory => False
  | _ => True

section Loops
variable {platform : Platform} {d : SkillDirectory} {out out' : SupportMap} {files : List SupportFile}

theorem entries_eq (top : Text) (entries : List Dirent) (out : SupportMap) :
    (entries.foldlM (fun out e => match fileOf top e with
      | some f => addFile platform out f
      | none => return out) out : Except String SupportMap) = (entries.filterMap (fileOf top)).foldlM (addFile platform) out := by
  induction entries generalizing out with
  | nil => rfl
  | cons e entries ih =>
    rw [List.foldlM_cons,List.filterMap_cons]
    cases fileOf top e with
    | none => exact ih out
    | some f =>
      rw [List.foldlM_cons]
      exact congrArg _ (funext ih)

/-- The loops come to one loop over the files. -/
theorem supportFiles_eq_ok :
    supportFiles platform d = .ok out ↔
      (∀ top ∈ SUPPORT, (d.support top).Readable) ∧ d.files.foldlM (addFile platform) .empty = .ok out := by
  unfold supportFiles SkillDirectory.files
  generalize SUPPORT = tops,(Table.empty : SupportMap) = start
  induction tops generalizing start with
  | nil => simp
  | cons top tops ih =>
    rw [List.foldlM_cons,List.flatMap_cons,List.foldlM_append,List.forall_mem_cons]
    cases d.support top with
    | absent => simpa [SupportDirectory.Readable,SupportDirectory.files] using ih start
    | symbolicLink => simp [SupportDirectory.Readable]
    | notDirectory => simp [SupportDirectory.Readable]
    | entries listing =>
      dsimp only
      rw [entries_eq]
      simp only [SupportDirectory.files,SupportDirectory.Readable,true_and,Result.bind_eq_ok,ih]
      constructor
      · rintro ⟨middle,first,readable,rest⟩
        exact ⟨readable,middle,first,rest⟩
      · rintro ⟨readable,middle,first,rest⟩
        exact ⟨middle,first,readable,rest⟩

/-- What a file comes to in the map. -/
def filed (platform : Platform) (f : SupportFile) : Text × Text := (key platform f,decode f.2)

theorem addFile_eq_ok {f : SupportFile} (fresh : out.find? (key platform f) = none) :
    addFile platform out f = .ok out' ↔
      out.rows.length < MAX_FILES ∧ f.2.length ≤ MAX_FILE ∧ out'.rows = out.rows ++ [filed platform f] := by
  obtain ⟨inserted,insert⟩ := Table.insert?_of_absent (r := filed platform f) fresh
  have rows := (Table.insert?_eq_some_iff.mp insert).2
  have set : SupportMap.set out (filed platform f) = inserted := by rw [SupportMap.set,insert]; rfl
  simp only [addFile,readNoFollow,Result.bind_eq_ok,Result.reject_eq_ok,Result.pure_eq_ok,ge_iff_le,gt_iff_lt,not_le,not_lt]
  constructor
  · rintro ⟨-,few,value,⟨-,small,rfl⟩,rfl⟩
    exact ⟨few,small,(congrArg Table.rows set).trans rows⟩
  · rintro ⟨few,small,same⟩
    exact ⟨(),few,_,⟨(),small,rfl⟩,Table.ext ((congrArg Table.rows set).trans (rows.trans same.symm))⟩

/-- Files under keys of their own are all taken, if they are neither too many nor too large. -/
theorem addFiles_eq_ok (distinct : (out.rows.map Prod.fst ++ files.map (key platform)).Nodup) :
    files.foldlM (addFile platform) out = .ok out' ↔
      (files = [] ∨ out.rows.length + files.length ≤ MAX_FILES) ∧ (∀ f ∈ files, f.2.length ≤ MAX_FILE) ∧
        out'.rows = out.rows ++ files.map (filed platform) := by
  induction files generalizing out with
  | nil =>
    rw [List.foldlM_nil,Result.pure_eq_ok]
    constructor
    · rintro rfl
      simp
    · rintro ⟨-,-,same⟩
      exact Table.ext (by simpa using same.symm)
  | cons f files ih =>
    have fresh : out.find? (key platform f) = none := by
      rw [Table.find?_eq_none_iff]
      intro r inside same
      exact (List.nodup_append.mp distinct).2.2 _ (List.mem_map_of_mem inside) _ (.head _) same
    rw [List.foldlM_cons,Result.bind_eq_ok]
    have later {middle : SupportMap} (rows : middle.rows = out.rows ++ [filed platform f]) :
        (middle.rows.map Prod.fst ++ files.map (key platform)).Nodup := by
      rw [rows,List.map_append,List.append_assoc]
      exact distinct
    constructor
    · rintro ⟨middle,first,rest⟩
      obtain ⟨few,small,rows⟩ := (addFile_eq_ok fresh).mp first
      obtain ⟨count,sizes,same⟩ := (ih (later rows)).mp rest
      rw [rows] at count same
      refine ⟨.inr ?_,List.forall_mem_cons.mpr ⟨small,sizes⟩,by simpa using same⟩
      rw [List.length_cons]
      rcases count with rfl | count
      · exact few
      · rw [List.length_append,List.length_singleton] at count
        omega
    · rintro ⟨count,sizes,same⟩
      have count := count.resolve_left (by simp)
      rw [List.length_cons] at count
      obtain ⟨middle,insert⟩ := Table.insert?_of_absent (r := filed platform f) fresh
      have rows := (Table.insert?_eq_some_iff.mp insert).2
      refine ⟨middle,(addFile_eq_ok fresh).mpr ⟨by omega,sizes f (.head _),rows⟩,(ih (later rows)).mpr ⟨.inr ?_,?_,?_⟩⟩
      · rw [rows,List.length_append,List.length_singleton]
        omega
      · exact fun f inside => sizes f (.tail _ inside)
      · rw [rows,same]
        simp

end Loops

section Trees
variable {d d' : SkillDirectory} {f g : SupportFile}

theorem fileOf_eq_some {top : Text} {e : Dirent} :
    fileOf top e = some f ↔ e.kind = .file f.2 ∧ f.1 = top :: e.path.map Subtype.val := by
  obtain ⟨path,content⟩ := f
  unfold fileOf
  cases e.kind with
  | file other => simp [eq_comm,and_comm]
  | symbolicLink => simp
  | other => simp

theorem mem_files {top : Text} {s : SupportDirectory} (inside : f ∈ s.files top) :
    ∃ path : List FileName, f.1 = top :: path.map Subtype.val := by
  cases s with
  | entries listing =>
    obtain ⟨e,-,made⟩ := List.mem_filterMap.mp inside
    exact ⟨e.path,(fileOf_eq_some.mp made).2⟩
  | absent => cases inside
  | symbolicLink => cases inside
  | notDirectory => cases inside

/-- What a name on a path may have in it. -/
theorem names_of_mem (inside : f ∈ d.files) : f.1 ≠ [] ∧ ∀ name ∈ f.1, '/' ∉ name ∧ nul ∉ name := by
  obtain ⟨top,known,here⟩ := List.mem_flatMap.mp inside
  obtain ⟨path,names⟩ := mem_files here
  have tops : ∀ top ∈ SUPPORT, '/' ∉ top ∧ nul ∉ top := by decide
  rw [names]
  refine ⟨List.cons_ne_nil _ _,List.forall_mem_cons.mpr ⟨tops top known,?_⟩⟩
  intro name among
  obtain ⟨file,-,rfl⟩ := List.mem_map.mp among
  exact file.property

theorem distinct_files (d : SkillDirectory) : (d.files.map Prod.fst).Nodup := by
  rw [SkillDirectory.files,List.map_flatMap,List.nodup_flatMap]
  constructor
  · intro top known
    cases d.support top with
    | entries listing =>
      rw [SupportDirectory.files,List.Nodup,List.pairwise_map,List.pairwise_filterMap]
      refine (List.pairwise_map.mp listing.distinct).imp fun apart f first g second same => apart ?_
      rw [(fileOf_eq_some.mp first).2,(fileOf_eq_some.mp second).2] at same
      exact List.map_injective_iff.mpr Subtype.val_injective (List.tail_eq_of_cons_eq same)
    | absent => exact List.nodup_nil
    | symbolicLink => exact List.nodup_nil
    | notDirectory => exact List.nodup_nil
  · have tops : SUPPORT.Nodup := by decide
    refine tops.imp fun apart path first second => apart ?_
    obtain ⟨f,inside,rfl⟩ := List.mem_map.mp first
    obtain ⟨g,among,same⟩ := List.mem_map.mp second
    obtain ⟨path,here⟩ := mem_files inside
    obtain ⟨other,there⟩ := mem_files among
    rw [here,there] at same
    exact (List.head_eq_of_cons_eq same).symm

/-- The same directory, come upon in another order. -/
inductive SupportDirectory.Relisted : SupportDirectory → SupportDirectory → Prop where
  | refl (s : SupportDirectory) : Relisted s s
  | entries {listing listing' : Listing} (perm : listing.entries.Perm listing'.entries) :
    Relisted (.entries listing) (.entries listing')

structure SkillDirectory.Relisted (d d' : SkillDirectory) : Prop where
  manifest : d.manifest = d'.manifest
  support : ∀ top, (d.support top).Relisted (d'.support top)

theorem SupportDirectory.Relisted.files {s s' : SupportDirectory} (relisted : s.Relisted s') (top : Text) :
    (s.files top).Perm (s'.files top) := by
  cases relisted with
  | refl => exact .refl _
  | entries perm => exact perm.filterMap _

theorem SupportDirectory.Relisted.readable {s s' : SupportDirectory} (relisted : s.Relisted s') (readable : s.Readable) :
    s'.Readable := by
  cases relisted with
  | refl => exact readable
  | entries perm => trivial

theorem SkillDirectory.Relisted.files (relisted : d.Relisted d') : d.files.Perm d'.files :=
  List.Perm.flatMap_left _ fun top _ => (relisted.support top).files top

/-- Texts without NUL, in UTF-8, under names without a backslash. -/
structure Plain (d : SkillDirectory) : Prop where
  manifest : ∀ content, d.manifest = .file content → ∃ text, nul ∉ text ∧ content = encode text
  files : ∀ f ∈ d.files, ∃ value, nul ∉ value ∧ f.2 = encode value
  names : ∀ f ∈ d.files, ∀ name ∈ f.1, backslash ∉ name

/-- No two files whose paths the locale does not tell apart. -/
def Separated (locale : Collation) (d : SkillDirectory) : Prop :=
  ∀ f ∈ d.files, ∀ g ∈ d.files,
    locale.compare (String.ofList (join '/' f.1)) (String.ofList (join '/' g.1)) = 0 → f.1 = g.1

namespace Plain
variable {platform : Platform} (plain : Plain d)
include plain

theorem key_eq (platform : Platform) (inside : f ∈ d.files) : key platform f = join '/' f.1 := by
  have kept : f.1.map (List.map fun c => if c = backslash then '/' else c) = f.1 := by
    refine (List.map_congr_left fun name among => ?_).trans (List.map_id' f.1)
    refine (List.map_congr_left fun c here => ?_).trans (List.map_id' name)
    have other : c ≠ backslash := by
      rintro rfl
      exact plain.names f inside name among here
    exact if_neg other
  rw [key,posixKey,map_join,kept]
  cases platform <;> rfl

theorem key_inj (plain' : Plain d') {platform' : Platform} (inside : f ∈ d.files) (inside' : g ∈ d'.files)
    (same : key platform f = key platform' g) : f.1 = g.1 := by
  rw [plain.key_eq platform inside,plain'.key_eq platform' inside'] at same
  obtain ⟨some_,names⟩ := names_of_mem inside
  obtain ⟨others,names'⟩ := names_of_mem inside'
  exact join_inj some_ others (fun name among => (names name among).1) (fun name among => (names' name among).1) same

theorem filed_inj (plain' : Plain d') {platform' : Platform} (inside : f ∈ d.files) (inside' : g ∈ d'.files)
    (same : filed platform f = filed platform' g) : f = g := by
  have content : decode f.2 = decode g.2 := congrArg Prod.snd same
  obtain ⟨value,-,written⟩ := plain.files f inside
  obtain ⟨value',-,written'⟩ := plain'.files g inside'
  rw [written,written',decode_encode,decode_encode] at content
  refine Prod.ext (plain.key_inj plain' inside inside' (congrArg Prod.fst same)) ?_
  rw [written,written',content]

theorem keys_distinct (platform : Platform) : (d.files.map (key platform)).Nodup := by
  rw [List.Nodup,List.pairwise_map]
  refine (List.pairwise_map.mp (distinct_files d)).imp_of_mem fun inside among apart same => apart ?_
  exact plain.key_inj plain inside among same

theorem supportFiles_eq_ok {out : SupportMap} : supportFiles platform d = .ok out ↔
    (∀ top ∈ SUPPORT, (d.support top).Readable) ∧ d.files.length ≤ MAX_FILES ∧ (∀ f ∈ d.files, f.2.length ≤ MAX_FILE) ∧
      out.rows = d.files.map (filed platform) := by
  rw [Skills.supportFiles_eq_ok,addFiles_eq_ok (by simpa using plain.keys_distinct platform)]
  have count : d.files = [] ∨ (Table.empty : SupportMap).rows.length + d.files.length ≤ MAX_FILES ↔ d.files.length ≤ MAX_FILES := by
    rw [Table.rows_empty,List.length_nil,zero_add]
    exact or_iff_right_of_imp fun none_ => by simp [none_]
  rw [count,Table.rows_empty,List.nil_append]

end Plain

end Trees

section Checksums
variable {sha256 : Bytes → String} {locale : Collation} {frontmatter : Text → Except String Frontmatter}
  {platform platform' : Platform} {name name' : Text} {d d' : SkillDirectory} {i i' : Item}

theorem pairs_inj {α : Type} {first second : List (α × α)}
    (same : first.flatMap (fun f => [f.1,f.2]) = second.flatMap (fun f => [f.1,f.2])) : first = second := by
  induction first generalizing second with
  | nil =>
    cases second with
    | nil => rfl
    | cons g second => cases same
  | cons f first ih =>
    cases second with
    | nil => cases same
    | cons g second =>
      simp only [List.flatMap_cons,List.cons_append,List.nil_append,List.cons.injEq] at same
      rw [Prod.ext same.1 same.2.1,ih same.2.2]

/-- Texts without NUL can be read off what is hashed. -/
theorem hashed_inj {text text' : Text} {files files' : SupportMap} (clean : nul ∉ text) (clean' : nul ∉ text')
    (parts : ∀ r ∈ files.rows, nul ∉ r.1 ∧ nul ∉ r.2) (parts' : ∀ r ∈ files'.rows, nul ∉ r.1 ∧ nul ∉ r.2)
    (same : hashed locale text files = hashed locale text' files') : text = text' ∧ files.rows.Perm files'.rows := by
  have free {text : Text} {files : SupportMap} (clean : nul ∉ text) (parts : ∀ r ∈ files.rows, nul ∉ r.1 ∧ nul ∉ r.2) :
      ∀ part ∈ text :: (ordered locale files).flatMap fun f => [f.1,f.2], nul ∉ part := by
    refine List.forall_mem_cons.mpr ⟨clean,fun part inside => ?_⟩
    obtain ⟨r,among,here⟩ := List.mem_flatMap.mp inside
    obtain ⟨first,second⟩ := parts r ((List.mem_insertionSort _).mp among)
    rcases List.mem_pair.mp here with rfl | rfl
    · exact first
    · exact second
  have whole := delimited_inj (free clean parts) (free clean' parts') (List.append_cancel_left same)
  obtain ⟨head,tail⟩ := List.cons_eq_cons.mp whole
  refine ⟨head,?_⟩
  have order := pairs_inj tail
  exact (List.perm_insertionSort _ _).symm.trans ((List.Perm.of_eq order).trans (List.perm_insertionSort _ _))

/-- What the call comes to when there is a skill. -/
theorem item_eq_ok : item sha256 locale frontmatter platform name d = .ok (some i) ↔
    ∃ content, d.manifest = .file content ∧ content.length ≤ MAX_MANIFEST ∧ i.text = decode content ∧
      parse frontmatter i.text = .ok i.parsed ∧ i.parsed.name = name ∧ supportFiles platform d = .ok i.support ∧
      i.digest = digest sha256 locale i.text i.support := by
  obtain ⟨text,parsed,support,_⟩ := i
  unfold item
  cases d.manifest with
  | absent => simp
  | symbolicLink => simp
  | notFile => simp
  | file content =>
    simp only [readNoFollow,Result.bind_eq_ok,Result.reject_eq_ok,Result.pure_eq_ok,Option.some.injEq,Item.mk.injEq,
      Manifest.file.injEq,gt_iff_lt,not_lt,ne_eq,not_not]
    constructor
    · rintro ⟨_,⟨-,small,rfl⟩,_,read,-,named,_,loaded,rfl,rfl,rfl,rfl⟩
      exact ⟨content,rfl,small,rfl,read,named,loaded,rfl⟩
    · rintro ⟨_,rfl,small,rfl,read,named,loaded,rfl⟩
      exact ⟨_,⟨(),small,rfl⟩,parsed,read,(),named,support,loaded,rfl,rfl,rfl,rfl⟩

theorem Plain.clean {support : SupportMap} (plain : Plain d) (loaded : supportFiles platform d = .ok support) :
    ∀ r ∈ support.rows, nul ∉ r.1 ∧ nul ∉ r.2 := by
  obtain ⟨-,-,-,rows⟩ := plain.supportFiles_eq_ok.mp loaded
  rw [rows]
  intro r inside
  obtain ⟨f,among,rfl⟩ := List.mem_map.mp inside
  obtain ⟨value,clean,written⟩ := plain.files f among
  constructor
  · show nul ∉ key platform f
    rw [plain.key_eq platform among]
    intro inside
    rcases of_mem_join inside with same | ⟨name,part,here⟩
    · exact absurd same (by decide)
    · exact ((names_of_mem among).2 name part).2 here
  · show nul ∉ decode f.2
    rwa [written,decode_encode]

/-- Files that the locale tells apart come into one order. -/
theorem Plain.ordered_eq {support support' : SupportMap} (plain : Plain d) (plain' : Plain d') (separated : Separated locale d)
    (perm : d.files.Perm d'.files) (loaded : support.rows = d.files.map (filed platform))
    (loaded' : support'.rows = d'.files.map (filed platform')) : ordered locale support = ordered locale support' := by
  have rows : support'.rows = d'.files.map (filed platform) := by
    rw [loaded']
    refine List.map_congr_left fun f inside => Prod.ext ?_ rfl
    exact (plain'.key_eq platform' inside).trans (plain'.key_eq platform inside).symm
  rw [ordered,ordered]
  apply insertionSort_eq_of_perm
  · rw [loaded,rows]
    exact perm.map _
  · exact fun a _ b _ => locale.total _ _
  · exact fun a _ b _ c _ => locale.trans _ _ _
  · rw [loaded]
    intro a inside b among le ge
    obtain ⟨f,known,rfl⟩ := List.mem_map.mp inside
    obtain ⟨g,there,rfl⟩ := List.mem_map.mp among
    have tied := Collation.eq_zero le ge
    simp only [filed,plain.key_eq platform known,plain.key_eq platform there] at tied
    rw [List.inj_on_of_nodup_map (distinct_files d) known there (separated f known g there tied)]

theorem Plain.pinned (plain : Plain d) (plain' : Plain d') (injective : Function.Injective sha256)
    (made : item sha256 locale frontmatter platform name d = .ok (some i))
    (made' : item sha256 locale frontmatter platform' name' d' = .ok (some i')) (same : i.digest = i'.digest) :
    d.manifest = d'.manifest ∧ d.files.Perm d'.files := by
  obtain ⟨content,manifest,-,text,-,-,loaded,hash⟩ := item_eq_ok.mp made
  obtain ⟨content',manifest',-,text',-,-,loaded',hash'⟩ := item_eq_ok.mp made'
  obtain ⟨value,clean,written⟩ := plain.manifest content manifest
  obtain ⟨value',clean',written'⟩ := plain'.manifest content' manifest'
  rw [written,decode_encode] at text
  rw [written',decode_encode] at text'
  have whole : hashed locale i.text i.support = hashed locale i'.text i'.support := by
    apply encode_inj
    apply injective
    exact hash.symm.trans (same.trans hash')
  obtain ⟨texts,perm⟩ := hashed_inj (text ▸ clean) (text' ▸ clean') (plain.clean loaded) (plain'.clean loaded') whole
  constructor
  · rw [manifest,manifest',written,written',← text,← text',texts]
  · obtain ⟨-,-,-,rows⟩ := plain.supportFiles_eq_ok.mp loaded
    obtain ⟨-,-,-,rows'⟩ := plain'.supportFiles_eq_ok.mp loaded'
    rw [rows,rows'] at perm
    rw [List.perm_ext_iff_of_nodup ((distinct_files d).of_map _) ((distinct_files d').of_map _)]
    intro f
    constructor
    · intro inside
      obtain ⟨g,there,equal⟩ := List.mem_map.mp (perm.mem_iff.mp (List.mem_map_of_mem inside))
      rwa [plain.filed_inj plain' inside there equal.symm]
    · intro inside
      obtain ⟨g,there,equal⟩ := List.mem_map.mp (perm.mem_iff.mpr (List.mem_map_of_mem inside))
      rwa [plain'.filed_inj plain inside there equal.symm]

theorem Plain.relisted (plain : Plain d) (plain' : Plain d') (relisted : d.Relisted d') (separated : Separated locale d)
    (made : item sha256 locale frontmatter platform name d = .ok (some i)) :
    ∃ i', item sha256 locale frontmatter platform' name d' = .ok (some i') ∧ i'.digest = i.digest := by
  obtain ⟨content,manifest,small,text,read,named,loaded,hash⟩ := item_eq_ok.mp made
  obtain ⟨readable,few,sizes,rows⟩ := plain.supportFiles_eq_ok.mp loaded
  have perm := relisted.files
  have distinct : ((d'.files.map (filed platform')).map Prod.fst).Nodup := by
    rw [List.map_map]
    exact plain'.keys_distinct platform'
  obtain ⟨support,rows'⟩ : ∃ support : SupportMap, support.rows = d'.files.map (filed platform') := ⟨⟨_,distinct⟩,rfl⟩
  have loaded' : Skills.supportFiles platform' d' = .ok support := by
    refine plain'.supportFiles_eq_ok.mpr ⟨?_,perm.length_eq ▸ few,?_,rows'⟩
    · exact fun top known => (relisted.support top).readable (readable top known)
    · exact fun f inside => sizes f (perm.mem_iff.mpr inside)
  have order : ordered locale i.support = ordered locale support := plain.ordered_eq plain' separated perm rows rows'
  have manifest' : d'.manifest = .file content := relisted.manifest ▸ manifest
  have made' := (item_eq_ok (i := { i with support, digest := digest sha256 locale i.text support })).mpr
    ⟨content,manifest',small,text,read,named,loaded',rfl⟩
  have texts : hashed locale i.text support = hashed locale i.text i.support := by
    unfold hashed
    rw [order]
  exact ⟨_,made',(congrArg (fun text => sha256 (encode text)) texts).trans hash.symm⟩

/-- Skills of plain texts are told apart by their checksums; and the checksum depends neither on the
order in which the files are come upon nor on the platform. -/
theorem checksum_pins (sha256 : Bytes → String) (injective : Function.Injective sha256) (locale : Collation)
    (frontmatter : Text → Except String Frontmatter) (d d' : SkillDirectory) (plain : Plain d) (plain' : Plain d') :
    (∀ platform platform' name name' i i', item sha256 locale frontmatter platform name d = .ok (some i) →
      item sha256 locale frontmatter platform' name' d' = .ok (some i') → i.digest = i'.digest →
      d.manifest = d'.manifest ∧ d.files.Perm d'.files) ∧
    (d.Relisted d' → Separated locale d → ∀ platform platform' name i,
      item sha256 locale frontmatter platform name d = .ok (some i) →
      ∃ i', item sha256 locale frontmatter platform' name d' = .ok (some i') ∧ i'.digest = i.digest) := by
  constructor
  · intro platform platform' name name' i i' made made' same
    exact plain.pinned plain' injective made made' same
  · intro relisted separated platform platform' name i made
    exact plain.relisted plain' relisted separated made

end Checksums

section Sample

/-- Bytes as characters. -/
def latin (bytes : Bytes) : String := String.ofList (bytes.map fun b => Char.ofNat b.toNat)

theorem latin_injective : Function.Injective latin := by
  intro first second same
  refine List.map_injective_iff.mpr ?_ (String.ofList_inj.mp same)
  intro a b letters
  have value (b : UInt8) : (Char.ofNat b.toNat).toNat = b.toNat := by
    rw [Char.ofNat,dif_pos (.inl (b.toNat_lt.trans (by decide)))]
    rfl
  exact UInt8.toNat_inj.mp ((value a).symm.trans ((congrArg Char.toNat letters).trans (value b)))

def frontmatter (_ : Text) : Except String Frontmatter := .ok ⟨"skill".toList,"1.0.0".toList⟩

def manifest : Text := "---\n\n---\n".toList

def file (content : String) : Dirent := ⟨[⟨"a".toList,by decide⟩],.file (encode content.toList)⟩

/-- With one support file, `references/a`. -/
def single : SkillDirectory where
  manifest := .file (encode manifest)
  support top := if top = "references".toList then .entries ⟨[file "x"],List.nodup_singleton _⟩ else .absent

/-- With none, but a longer manifest. -/
def folded : SkillDirectory where
  manifest := .file (encode (manifest ++ delimited nul ["references/a".toList,"x".toList]))
  support _ := .absent

theorem checksum_collides : ¬∀ (sha256 : Bytes → String), Function.Injective sha256 → ∀ (locale : Collation)
    (frontmatter : Text → Except String Frontmatter) (platform : Platform) (name : Text) (d d' : SkillDirectory) (i i' : Item),
    item sha256 locale frontmatter platform name d = .ok (some i) →
    item sha256 locale frontmatter platform name d' = .ok (some i') → i.digest = i'.digest → d.manifest = d'.manifest := by
  intro pins
  have same := pins latin latin_injective .characters frontmatter .posix "skill".toList single folded _ _ rfl rfl rfl
  have bytes := Manifest.file.inj same
  exact absurd (encode_inj bytes) (by decide)

theorem plain_single : Plain single where
  manifest content is := ⟨manifest,by decide,(Manifest.file.inj is).symm⟩
  files f inside := by
    obtain rfl : f = (["references".toList,"a".toList],encode "x".toList) := List.mem_singleton.mp inside
    exact ⟨"x".toList,by decide,rfl⟩
  names f inside := by
    obtain rfl : f = (["references".toList,"a".toList],encode "x".toList) := List.mem_singleton.mp inside
    decide

theorem checksum_pins_single : ∃ i', item latin .characters frontmatter .win32 "skill".toList single = .ok (some i') ∧
    i'.digest = latin (encode ("SKILL.md".toList ++ delimited nul [manifest,"references/a".toList,"x".toList])) := by
  have separated : Separated .characters single := by
    intro f inside g among _
    rw [List.mem_singleton.mp inside,List.mem_singleton.mp among]
  exact (checksum_pins latin latin_injective .characters frontmatter single single plain_single plain_single).2
    ⟨rfl,fun _ => .refl _⟩ separated .posix .win32 "skill".toList _ rfl

end Sample

end RatifyOs.Cognition.Skills
