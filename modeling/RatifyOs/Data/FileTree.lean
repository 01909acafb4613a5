import Mathlib.Data.List.Infix
import RatifyOs.Data.Result

/-! The files and folders under one folder, and the two calls that make new ones. -/
namespace RatifyOs.Data

inductive Node (β : Type) where
  | folder
  | file (data : β)

/-- What stands at a path, which is its segments from the top. -/
abbrev FileTree (ν β : Type) := List ν → Option (Node β)

namespace FileTree
open Result

variable {ν β : Type} {tree tree' : FileTree ν β} {path : List ν} {data : β}

/-- An empty folder -/
def bare : FileTree ν β
  | [] => some .folder
  | _ :: _ => none

def isFile : Option (Node β) → Bool
  | some (.file _) => true
  | _ => false

theorem eq_iff : tree = tree' ↔ (∀ p data, tree p = some (.file data) ↔ tree' p = some (.file data)) ∧
    ∀ p, tree p = some .folder ↔ tree' p = some .folder := by
  constructor
  · rintro rfl
    exact ⟨fun _ _ => Iff.rfl,fun _ => Iff.rfl⟩
  · rintro ⟨files,folders⟩
    funext p
    cases here : tree p with
    | none =>
      cases there : tree' p with
      | none => rfl
      | some node =>
        cases node with
        | folder => rw [(folders p).mpr there] at here; cases here
        | file data => rw [(files p data).mpr there] at here; cases here
    | some node =>
      cases node with
      | folder => exact ((folders p).mp here).symm
      | file data => exact ((files p data).mp here).symm

theorem bare_file (p : List ν) (data : β) : bare p ≠ some (.file data) := by
  cases p <;> exact nofun

theorem bare_folder_iff (p : List ν) : (bare p : Option (Node β)) = some .folder ↔ p = [] := by
  cases p with
  | nil => exact iff_of_true rfl rfl
  | cons a p => exact iff_of_false nofun nofun

section Calls
variable [DecidableEq ν]

/-- `mkdir(path,{ recursive: true })` -/
def mkdir (tree : FileTree ν β) (path : List ν) : Except String (FileTree ν β) := do
  reject (isFile (tree path)) "EEXIST"
  reject (∃ above ∈ path.inits, isFile (tree above)) "ENOTDIR"
  return fun p => if p <+: path then some .folder else tree p

/-- `open(path,"wx")`, and the data written to it -/
def create (tree : FileTree ν β) (path : List ν) (data : β) : Except String (FileTree ν β) := do
  reject (tree path).isSome "EEXIST"
  return Function.update tree path (some (.file data))

theorem mkdir_file_iff (made : mkdir tree path = .ok tree') (p : List ν) (data : β) :
    tree' p = some (.file data) ↔ tree p = some (.file data) := by
  simp only [mkdir,bind_eq_ok,reject_eq_ok,pure_eq_ok] at made
  obtain ⟨_,_,_,clear,rfl⟩ := made
  dsimp only
  split_ifs with above
  · have there : tree p ≠ some (.file data) := by
      intro file
      exact clear ⟨p,(List.mem_inits p path).mpr above,by rw [file]; rfl⟩
    simp [there]
  · exact Iff.rfl

theorem mkdir_folder_iff (made : mkdir tree path = .ok tree') (p : List ν) :
    tree' p = some .folder ↔ p <+: path ∨ tree p = some .folder := by
  simp only [mkdir,bind_eq_ok,reject_eq_ok,pure_eq_ok] at made
  obtain ⟨_,_,_,_,rfl⟩ := made
  dsimp only
  split_ifs with above
  · exact iff_of_true rfl (.inl above)
  · exact (or_iff_right above).symm

theorem create_file_iff (made : create tree path data = .ok tree') (p : List ν) (other : β) :
    tree' p = some (.file other) ↔ (p = path ∧ other = data) ∨ tree p = some (.file other) := by
  simp only [create,bind_eq_ok,reject_eq_ok,pure_eq_ok] at made
  obtain ⟨_,free,rfl⟩ := made
  rw [Function.update_apply]
  split_ifs with same
  · subst same
    rw [Option.not_isSome_iff_eq_none] at free
    simp [free,eq_comm]
  · simp [same]

theorem create_folder_iff (made : create tree path data = .ok tree') (p : List ν) :
    tree' p = some .folder ↔ tree p = some .folder := by
  simp only [create,bind_eq_ok,reject_eq_ok,pure_eq_ok] at made
  obtain ⟨_,free,rfl⟩ := made
  rw [Function.update_apply]
  split_ifs with same
  · subst same
    rw [Option.not_isSome_iff_eq_none] at free
    simp [free]
  · exact Iff.rfl

end Calls

end FileTree

end RatifyOs.Data
