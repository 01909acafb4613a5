import RatifyOs.Data.Collation
import RatifyOs.Data.FileTree
import RatifyOs.Data.Utf8
import RatifyOs.Execution.Canonical
import RatifyOs.Plugins.Host

/-! The installer: what is signed, what is checked, and what is written. -/
namespace RatifyOs.Plugins
open Data Data.Result Execution

/-- A number of an accepted manifest, which is whole. -/
def whole : Double → ℤ
  | .finite q => ⌊q⌋
  | _ => 0

def Effect.text : Effect → String
  | .read => "read"
  | .write => "write"
  | .external => "external"

def PluginTool.json (t : PluginTool) : Json := .obj [
  ("name",.str t.name),("effect",.str t.effect.text),("capabilities",.strings t.capabilities)]

def PluginHostname.json (host : PluginHostname) : Json := .obj [
  ("hostname",.str host.hostname),("port",.num (whole host.port)),("tls",.bool true)]

def PluginManifest.json (m : PluginManifest) : Json := .obj [
  ("schemaVersion",.num 1),
  ("id",.str m.id),
  ("version",.str m.version),
  ("package",.obj [("sha256",.str m.sha256),("provenance",.str m.provenance)]),
  ("compatibility",.obj [("agent",.str m.agent),("node",.str m.node)]),
  ("tools",.arr (m.tools.map PluginTool.json)),
  ("permissions",.obj [
    ("filesystem",.obj [("read",.strings m.filesystemRead),("write",.strings m.filesystemWrite)]),
    ("network",.arr (m.network.map PluginHostname.json)),
    ("env",.strings m.env)]),
  ("resources",.obj [
    ("cpuMs",.num (whole m.cpuMs)),("memoryMb",.num (whole m.memoryMb)),("timeoutMs",.num (whole m.timeoutMs))])]

inductive EntryType where
  | file
  | symlink
  | directory
  deriving DecidableEq

structure ArchiveEntry where
  path : String
  data : Bytes
  type : Option EntryType := none

/-- What `join` leaves of a path that is safe. -/
def ArchiveEntry.segments (e : ArchiveEntry) : List Text := parts (· = '/') e.path.toList

structure ArchiveLimits where
  maxFiles : Double
  maxUnpackedBytes : Double

def DEFAULT_LIMITS : ArchiveLimits := ⟨1024,104857600⟩

structure PluginInstaller where
  root : String
  verifySignature : Bytes → Bytes → Bool
  limits : Option ArchiveLimits := none

structure InstallRequest where
  manifest : PluginManifest
  signature : Bytes
  packageBytes : Bytes
  entries : List ArchiveEntry

structure InstalledPlugin where
  id : String
  version : String
  path : String
  checksum : String

/-- What stands where the plugin is to go: a file in place of a folder above it, or a plugin. -/
structure Site where
  blocked : Bool
  occupied : Bool

section Install
variable (isUrl : String → Bool) (localeCompare : String → String → ℤ) (sha256 : Bytes → String)

def canonicalManifest (m : PluginManifest) : Option Text :=
  (parsePluginManifest isUrl m).map fun m => stringify (normalize localeCompare m.json)

def checkEntries (limits : ArchiveLimits) : ℕ → List ArchiveEntry → Except String Unit
  | _, [] => .ok ()
  | size, e :: entries => do
    reject (e.type = some .symlink) "Archive symlink rejected"
    let size := if e.type = some .directory then size else size + e.data.length
    reject (limits.maxUnpackedBytes < .finite size) "Archive size limit exceeded"
    reject (safePath e.path = false) "invalid scoped path"
    checkEntries limits size entries

abbrev Tree := FileTree Text Bytes

def place (tree : Tree) (e : ArchiveEntry) : Except String Tree :=
  if e.type = some .directory then tree.mkdir e.segments
  else do
    let tree ← tree.mkdir e.segments.dropLast
    tree.create e.segments e.data

/-- The stage is a folder of its own until it is renamed. -/
def unpack (entries : List ArchiveEntry) : Except String Tree := entries.foldlM place .bare

def PluginInstaller.install (o : PluginInstaller) (site : Site) (i : InstallRequest) :
    Except String (InstalledPlugin × Tree) := do
  let m ← required (parsePluginManifest isUrl i.manifest) "Invalid/unknown/forbidden plugin manifest"
  let payload ← required (canonicalManifest isUrl localeCompare m) "Invalid/unknown/forbidden plugin manifest"
  reject (o.verifySignature (Utf8.encode payload) i.signature = false) "Invalid plugin signature"
  reject (sha256 i.packageBytes ≠ m.sha256) "Package digest mismatch"
  let lim := o.limits.getD DEFAULT_LIMITS
  reject (lim.maxFiles < .finite i.entries.length) "Archive file limit exceeded"
  checkEntries lim 0 i.entries
  reject site.blocked "ENOTDIR"
  let tree ← unpack i.entries
  reject site.occupied "ENOTEMPTY"
  return (⟨m.id,m.version,s!"{o.root}/{m.id}/{m.version}",m.sha256⟩,tree)

end Install

/-! What an archive describes, whatever the order of its entries. -/

def files (entries : List ArchiveEntry) : List (List Text × Bytes) :=
  (entries.filter fun e => e.type ≠ some .directory).map fun e => (e.segments,e.data)

/-- The folders that the entries are, or are in. -/
def folders (entries : List ArchiveEntry) : List (List Text) :=
  entries.map fun e => if e.type = some .directory then e.segments else e.segments.dropLast

/-- Two archives with the same bytes at the same paths, and the same folders. -/
structure SameContents (entries entries' : List ArchiveEntry) : Prop where
  files : ∀ path data, (path,data) ∈ files entries ↔ (path,data) ∈ files entries'
  folders : ∀ path ≠ [], (∃ folder ∈ folders entries, path <+: folder) ↔ ∃ folder ∈ folders entries', path <+: folder

structure Describes (entries : List ArchiveEntry) (tree : Tree) : Prop where
  files : ∀ path data, tree path = some (.file data) ↔ (path,data) ∈ files entries
  folders : ∀ path, tree path = some .folder ↔ path = [] ∨ ∃ folder ∈ folders entries, path <+: folder

section Unpack
variable {entries : List ArchiveEntry} {tree tree' : Tree} {e : ArchiveEntry}

theorem files_append (entries : List ArchiveEntry) (e : ArchiveEntry) :
    files (entries ++ [e]) = files entries ++ if e.type = some .directory then [] else [(e.segments,e.data)] := by
  by_cases directory : e.type = some .directory
  · simp [files,directory]
  · simp [files,directory]

theorem folders_append (entries : List ArchiveEntry) (e : ArchiveEntry) :
    folders (entries ++ [e]) = folders entries ++ [if e.type = some .directory then e.segments else e.segments.dropLast] := by
  rw [folders,List.map_append]
  rfl

theorem describes_bare : Describes [] .bare where
  files path data := iff_of_false (FileTree.bare_file path data) List.not_mem_nil
  folders path := by
    rw [FileTree.bare_folder_iff]
    simp [folders]

/-- The folders that `mkdir` adds. -/
theorem folders_mkdir {path folder : List Text} (described : ∀ p, tree p = some .folder ↔
      p = [] ∨ ∃ folder ∈ folders entries, p <+: folder) (made : tree.mkdir folder = .ok tree') :
    tree' path = some .folder ↔ path = [] ∨ ∃ other ∈ folders entries ++ [folder], path <+: other := by
  rw [FileTree.mkdir_folder_iff made,described]
  simp only [List.mem_append,List.mem_singleton,or_and_right,exists_or,exists_eq_left]
  rw [or_left_comm,or_comm (a := path <+: folder)]

theorem describes_place (described : Describes entries tree) (placed : place tree e = .ok tree') :
    Describes (entries ++ [e]) tree' := by
  unfold place at placed
  split_ifs at placed with directory
  · constructor
    · intro path data
      rw [FileTree.mkdir_file_iff placed,described.files,files_append,if_pos directory,List.append_nil]
    · intro path
      rw [folders_mkdir described.folders placed,folders_append,if_pos directory]
  · obtain ⟨above,made,created⟩ := bind_eq_ok.mp placed
    constructor
    · intro path data
      rw [FileTree.create_file_iff created,FileTree.mkdir_file_iff made,described.files,files_append,if_neg directory,
        List.mem_append,List.mem_singleton,Prod.mk.injEq,or_comm]
    · intro path
      rw [FileTree.create_folder_iff created,folders_mkdir described.folders made,folders_append,if_neg directory]

theorem describes_foldlM {rest : List ArchiveEntry} (described : Describes entries tree)
    (unpacked : rest.foldlM place tree = .ok tree') : Describes (entries ++ rest) tree' := by
  induction rest generalizing entries tree with
  | nil =>
    cases unpacked
    rwa [List.append_nil]
  | cons e rest ih =>
    rw [List.foldlM_cons] at unpacked
    obtain ⟨between,placed,unpacked⟩ := bind_eq_ok.mp unpacked
    rw [List.append_cons]
    exact ih (describes_place described placed) unpacked

theorem describes_unpack (unpacked : unpack entries = .ok tree) : Describes entries tree :=
  describes_foldlM describes_bare unpacked

theorem Describes.eq_iff {entries' : List ArchiveEntry} (described : Describes entries tree)
    (described' : Describes entries' tree') : tree = tree' ↔ SameContents entries entries' := by
  rw [FileTree.eq_iff]
  simp only [described.files,described'.files,described.folders,described'.folders]
  constructor
  · rintro ⟨files,folders⟩
    refine ⟨files,fun path some_ => ?_⟩
    simpa only [some_,false_or] using folders path
  · intro same
    refine ⟨same.files,fun path => ?_⟩
    by_cases top : path = []
    · simp only [top,true_or]
    · simp only [top,false_or,same.folders path top]

end Unpack

section Installed
variable {isUrl : String → Bool} {localeCompare : String → String → ℤ} {sha256 : Bytes → String} {o o' : PluginInstaller}
variable {site site' : Site} {i i' : InstallRequest} {p p' : InstalledPlugin} {tree tree' : Tree}

/-- When a plugin is installed, and what is. -/
theorem install_eq_ok : o.install isUrl localeCompare sha256 site i = .ok (p,tree) ↔
    parsePluginManifest isUrl i.manifest = some i.manifest ∧
    o.verifySignature (Utf8.encode (stringify (normalize localeCompare i.manifest.json))) i.signature = true ∧
    sha256 i.packageBytes = i.manifest.sha256 ∧
    ¬(o.limits.getD DEFAULT_LIMITS).maxFiles < .finite i.entries.length ∧
    checkEntries (o.limits.getD DEFAULT_LIMITS) 0 i.entries = .ok () ∧
    site = ⟨false,false⟩ ∧ unpack i.entries = .ok tree ∧
    p = ⟨i.manifest.id,i.manifest.version,s!"{o.root}/{i.manifest.id}/{i.manifest.version}",i.manifest.sha256⟩ := by
  have same : ∀ m, parsePluginManifest isUrl i.manifest = some m → m = i.manifest := by
    intro m accepted
    unfold parsePluginManifest at accepted
    split_ifs at accepted
    exact (Option.some.inj accepted).symm
  simp only [PluginInstaller.install,bind_eq_ok,required_eq_ok,reject_eq_ok,pure_eq_ok,Prod.mk.injEq]
  constructor
  · rintro ⟨m,accepted,payload,written,_,verified,_,digest,_,count,_,checked,_,free,t,unpacked,_,empty,rfl,rfl⟩
    obtain rfl := same m accepted
    rw [canonicalManifest,accepted,Option.map_some,Option.some.injEq] at written
    subst written
    refine ⟨accepted,?_,not_not.mp digest,count,checked,?_,unpacked,rfl⟩
    · rwa [Bool.not_eq_false] at verified
    · cases site
      simp only [Bool.not_eq_true] at free empty
      rw [free,empty]
  · rintro ⟨accepted,verified,digest,count,checked,rfl,unpacked,rfl⟩
    exact ⟨i.manifest,accepted,_,by rw [canonicalManifest,accepted,Option.map_some],(),by simpa using verified,(),
      not_not.mpr digest,(),count,(),checked,(),by simp,tree,unpacked,(),by simp,rfl,rfl⟩

/-- The package is tied to the manifest, and the files to nothing but the entries of the call. -/
theorem installed_eq_iff (injective : Function.Injective sha256) (manifest : i'.manifest = i.manifest)
    (installed : o.install isUrl localeCompare sha256 site i = .ok (p,tree))
    (installed' : o'.install isUrl localeCompare sha256 site' i' = .ok (p',tree')) :
    i'.packageBytes = i.packageBytes ∧ (tree = tree' ↔ SameContents i.entries i'.entries) := by
  obtain ⟨_,_,digest,_,_,_,unpacked,_⟩ := install_eq_ok.mp installed
  obtain ⟨_,_,digest',_,_,_,unpacked',_⟩ := install_eq_ok.mp installed'
  rw [manifest,← digest] at digest'
  exact ⟨injective digest',(describes_unpack unpacked).eq_iff (describes_unpack unpacked')⟩

end Installed

namespace Sample

/-- The digest of nothing is the real one; no other is a digest. -/
def digest (bytes : Bytes) : String :=
  if bytes = [] then "e3b0c44298fc1c149afbf4c8996fb92427ae41e4649b934ca495991b7852b855" else "#" ++ bytes.toBase64

def released : PluginManifest :=
  { manifest "quote" with sha256 := "e3b0c44298fc1c149afbf4c8996fb92427ae41e4649b934ca495991b7852b855" }

def archive (byte : UInt8) : List ArchiveEntry := [⟨"lib",[],some .directory⟩,⟨"lib/index.js",[byte],none⟩]

def installer : PluginInstaller := ⟨"/plugins",fun _ _ => true,none⟩

def request (byte : UInt8) : InstallRequest := ⟨released,[],[],archive byte⟩

def install (byte : UInt8) : Except String (InstalledPlugin × Tree) :=
  installer.install (fun _ => true) Collation.characters.compare digest ⟨false,false⟩ (request byte)

theorem manifest_eq : (request 98).manifest = (request 97).manifest := rfl

theorem digest_injective : Function.Injective digest := by
  have other : ∀ bytes : Bytes, "e3b0c44298fc1c149afbf4c8996fb92427ae41e4649b934ca495991b7852b855" ≠ "#" ++ bytes.toBase64 := by
    intro bytes same
    have first := congrArg (fun text : String => text.toList.head?) same
    simp at first
  intro a b same
  unfold digest at same
  split_ifs at same with left right right
  · rw [left,right]
  · exact absurd same (other b)
  · exact absurd same.symm (other a)
  · have text : a.toBase64 = b.toBase64 := by simpa using same
    rw [← Bytes.ofBase64_toBase64 a,text,Bytes.ofBase64_toBase64]

theorem installs : ∀ byte ∈ [97,98], ∃ p tree, install byte = .ok (p,tree) ∧ Describes (archive byte) tree := by
  have valid : released.valid (fun _ => true) = true := by decide +kernel
  have runs : ∀ byte ∈ [97,98], (checkEntries DEFAULT_LIMITS 0 (archive byte)).isOk = true ∧ (unpack (archive byte)).isOk = true := by
    decide +kernel
  intro byte inside
  obtain ⟨checked,unpacked⟩ := runs byte inside
  obtain ⟨_,checked⟩ := isOk_iff.mp checked
  obtain ⟨tree,unpacked⟩ := isOk_iff.mp unpacked
  have few : ¬DEFAULT_LIMITS.maxFiles < .finite ((2 : ℕ) : ℚ) := by decide
  exact ⟨_,tree,install_eq_ok.mpr ⟨if_pos valid,rfl,if_pos rfl,few,checked,rfl,unpacked,rfl⟩,describes_unpack unpacked⟩

end Sample

open Sample in
theorem installed_archive : ∃ p p' tree tree', install 97 = .ok (p,tree) ∧ install 98 = .ok (p',tree') ∧
    (tree = tree' ↔ SameContents (archive 97) (archive 98)) := by
  obtain ⟨p,tree,installed,_⟩ := installs 97 (by decide)
  obtain ⟨p',tree',installed',_⟩ := installs 98 (by decide)
  exact ⟨p,p',tree,tree',installed,installed',(installed_eq_iff digest_injective manifest_eq installed installed').2⟩

open Sample in
/-- Another archive under the same manifest, signature and package. -/
theorem installed_tampered : ¬∀ (isUrl : String → Bool) (localeCompare : String → String → ℤ) (sha256 : Bytes → String),
    Function.Injective sha256 → ∀ (o o' : PluginInstaller) (site site' : Site) (i i' : InstallRequest) p p' tree tree',
    i'.manifest = i.manifest → i'.signature = i.signature →
    o.install isUrl localeCompare sha256 site i = .ok (p,tree) →
    o'.install isUrl localeCompare sha256 site' i' = .ok (p',tree') → tree = tree' := by
  intro same
  obtain ⟨p,tree,installed,described⟩ := installs 97 (by decide)
  obtain ⟨p',tree',installed',described'⟩ := installs 98 (by decide)
  have equal := same _ _ _ digest_injective _ _ _ _ _ _ _ _ _ _ manifest_eq rfl installed installed'
  have file := (described.files ["lib".toList,"index.js".toList] [97]).mpr (by decide +kernel)
  rw [equal,described'.files] at file
  exact absurd file (by decide +kernel)

end RatifyOs.Plugins
