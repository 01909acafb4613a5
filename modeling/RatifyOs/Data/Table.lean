import Mathlib.Data.List.Nodup

/-! A table whose rows are found by one of their own columns, in insertion order.
That no two rows share a key is part of the value. -/
namespace RatifyOs.Data

variable {κ ρ : Type} {key : ρ → κ}

structure Table (key : ρ → κ) where
  rows : List ρ
  distinct : (rows.map key).Nodup

namespace Table

@[ext] theorem ext {t u : Table key} (same : t.rows = u.rows) : t = u := by
  cases t; cases u; simp_all

def empty : Table key := ⟨[],List.nodup_nil⟩

@[simp] theorem rows_empty : (empty : Table key).rows = [] := rfl

/-- `SELECT … WHERE p ORDER BY rowid` -/
def select (t : Table key) (p : ρ → Bool) : List ρ := t.rows.filter p

@[simp] theorem mem_select {t : Table key} {p : ρ → Bool} {r : ρ} :
    r ∈ t.select p ↔ r ∈ t.rows ∧ p r := List.mem_filter

variable [DecidableEq κ]

/-- `SELECT … WHERE key = ?` -/
def find? (t : Table key) (k : κ) : Option ρ := t.rows.find? fun r => key r = k

/-- `INSERT`, refused on a key that is there already. -/
def insert? (t : Table key) (r : ρ) : Option (Table key) :=
  if fresh : key r ∈ t.rows.map key then none
  else some ⟨t.rows ++ [r],by
    rw [List.map_append,List.nodup_append]
    refine ⟨t.distinct,by simp,?_⟩
    intro a inside b single same
    simp only [List.map_cons,List.map_nil,List.mem_singleton] at single
    exact fresh (single ▸ same ▸ inside)⟩

private theorem put_keys (r : ρ) (rows : List ρ) :
    (rows.map fun old => if key old = key r then r else old).map key = rows.map key := by
  rw [List.map_map]
  refine List.map_congr_left fun old _ => ?_
  by_cases same : key old = key r <;> simp [same]

/-- `UPDATE … WHERE key = ?`: the row of the same key is replaced, if there is one. -/
def put (t : Table key) (r : ρ) : Table key :=
  ⟨t.rows.map fun old => if key old = key r then r else old,by rw [put_keys]; exact t.distinct⟩

/-- `INSERT OR REPLACE`: a row of the same key is deleted first. -/
def upsert (t : Table key) (r : ρ) : Table key :=
  ⟨(t.rows.filter fun old => key old ≠ key r) ++ [r],by
    rw [List.map_append,List.nodup_append]
    refine ⟨t.distinct.sublist (List.filter_sublist.map key),by simp,?_⟩
    intro a inside b single same
    simp only [List.map_cons,List.map_nil,List.mem_singleton] at single
    obtain ⟨old,kept,rfl⟩ := List.mem_map.mp inside
    simp [same,single] at kept⟩

/-- `DELETE … WHERE NOT p` -/
def keep (t : Table key) (p : ρ → Bool) : Table key :=
  ⟨t.rows.filter p,t.distinct.sublist (List.filter_sublist.map key)⟩

@[simp] theorem find?_empty (k : κ) : (empty : Table key).find? k = none := rfl

theorem find?_eq_some_iff {t : Table key} {k : κ} {r : ρ} :
    t.find? k = some r ↔ r ∈ t.rows ∧ key r = k := by
  constructor
  · intro found
    exact ⟨List.mem_of_find?_eq_some found,by simpa using List.find?_some found⟩
  · rintro ⟨inside,rfl⟩
    cases found : t.find? (key r) with
    | none => simpa using List.find?_eq_none.mp found r inside
    | some other =>
      have same : key other = key r := by simpa using List.find?_some found
      rw [List.inj_on_of_nodup_map t.distinct (List.mem_of_find?_eq_some found) inside same]

theorem find?_eq_none_iff {t : Table key} {k : κ} : t.find? k = none ↔ ∀ r ∈ t.rows, key r ≠ k := by
  simp [find?]

theorem key_of_find? {t : Table key} {k : κ} {r : ρ} (found : t.find? k = some r) : key r = k :=
  (find?_eq_some_iff.mp found).2

theorem mem_of_find? {t : Table key} {k : κ} {r : ρ} (found : t.find? k = some r) : r ∈ t.rows :=
  (find?_eq_some_iff.mp found).1

theorem find?_of_mem {t : Table key} {r : ρ} (inside : r ∈ t.rows) : t.find? (key r) = some r :=
  find?_eq_some_iff.mpr ⟨inside,rfl⟩

theorem insert?_eq_some_iff {t u : Table key} {r : ρ} :
    t.insert? r = some u ↔ t.find? (key r) = none ∧ u.rows = t.rows ++ [r] := by
  unfold insert?
  split
  · rename_i taken
    obtain ⟨old,inside,same⟩ := List.mem_map.mp taken
    simp only [reduceCtorEq,false_iff,not_and]
    intro absent
    exact absurd same (find?_eq_none_iff.mp absent old inside)
  · rename_i fresh
    have absent : t.find? (key r) = none := find?_eq_none_iff.mpr fun old inside same =>
      fresh (List.mem_map.mpr ⟨old,inside,same⟩)
    simp only [Option.some.injEq,absent,true_and]
    exact ⟨fun same => same ▸ rfl,fun same => Table.ext same.symm⟩

theorem insert?_of_absent {t : Table key} {r : ρ} (absent : t.find? (key r) = none) : ∃ u, t.insert? r = some u := by
  have fresh : key r ∉ t.rows.map key := by
    intro taken
    obtain ⟨old,inside,same⟩ := List.mem_map.mp taken
    exact find?_eq_none_iff.mp absent old inside same
  exact ⟨_,dif_neg fresh⟩

theorem find?_insert? {t u : Table key} {r : ρ} (inserted : t.insert? r = some u) (k : κ) :
    u.find? k = if key r = k then some r else t.find? k := by
  obtain ⟨absent,rows⟩ := insert?_eq_some_iff.mp inserted
  unfold find? at absent ⊢
  rw [rows,List.find?_append]
  by_cases same : key r = k
  · subst same
    simp [absent]
  · simp [same]

theorem find?_put (t : Table key) (r : ρ) (k : κ) :
    (t.put r).find? k = if key r = k then (t.find? k).map fun _ => r else t.find? k := by
  obtain ⟨rows,distinct⟩ := t
  simp only [find?,put]
  clear distinct
  induction rows with
  | nil => simp
  | cons old rows ih =>
    simp only [List.map_cons,List.find?_cons]
    by_cases hit : key old = key r <;> by_cases same : key r = k <;> by_cases here : key old = k <;>
      simp_all

theorem mem_put {t : Table key} {r r' : ρ} (inside : r' ∈ (t.put r).rows) :
    r' = r ∨ r' ∈ t.rows ∧ key r' ≠ key r := by
  obtain ⟨old,kept,rfl⟩ := List.mem_map.mp inside
  by_cases same : key old = key r
  · left
    simp [same]
  · right
    simpa [same] using kept

theorem mem_put_iff {t : Table key} {r r' old : ρ} (found : t.find? (key r) = some old) :
    r' ∈ (t.put r).rows ↔ r' = r ∨ r' ∈ t.rows ∧ key r' ≠ key r := by
  obtain ⟨listed,same⟩ := find?_eq_some_iff.mp found
  refine ⟨mem_put,fun either => List.mem_map.mpr ?_⟩
  obtain rfl | ⟨inside,other⟩ := either
  · exact ⟨old,listed,by simp [same]⟩
  · exact ⟨r',inside,by simp [other]⟩

/-- A row is replaced where it stands. -/
theorem put_split {t : Table key} {r old : ρ} (found : t.find? (key r) = some old) :
    ∃ before after, t.rows = before ++ old :: after ∧ (t.put r).rows = before ++ r :: after ∧
      ∀ other ∈ before ++ after, key other ≠ key r := by
  obtain ⟨inside,same⟩ := find?_eq_some_iff.mp found
  obtain ⟨before,after,split⟩ := List.append_of_mem inside
  have distinct := t.distinct
  rw [split,List.map_append,List.map_cons,List.nodup_middle] at distinct
  have apart : ∀ other ∈ before ++ after, key other ≠ key r := by
    intro other there same'
    exact (List.nodup_cons.mp distinct).1 (by
      rw [← List.map_append]
      exact List.mem_map.mpr ⟨other,there,same'.trans same.symm⟩)
  refine ⟨before,after,split,?_,apart⟩
  have kept (rows : List ρ) (inside' : ∀ other ∈ rows, other ∈ before ++ after) :
      (rows.map fun old => if key old = key r then r else old) = rows :=
    (List.map_congr_left fun other there => if_neg (apart other (inside' other there))).trans (List.map_id' rows)
  simp only [put,split,List.map_append,List.map_cons,same,if_true]
  rw [kept before fun other there => List.mem_append_left _ there,kept after fun other there => List.mem_append_right _ there]

theorem put_put {t : Table key} {r r' : ρ} (same : key r' = key r) : (t.put r).put r' = t.put r' := by
  refine Table.ext ?_
  simp only [put,List.map_map]
  refine List.map_congr_left fun old _ => ?_
  by_cases here : key old = key r <;> simp [here,same]

theorem find?_put_self {t : Table key} {r old : ρ} (found : t.find? (key r) = some old) :
    (t.put r).find? (key r) = some r := by
  simp [find?_put,found]

theorem find?_put_of_ne {t : Table key} {r : ρ} {k : κ} (other : key r ≠ k) :
    (t.put r).find? k = t.find? k := by
  simp [find?_put,other]

theorem find?_upsert (t : Table key) (r : ρ) (k : κ) :
    (t.upsert r).find? k = if key r = k then some r else t.find? k := by
  unfold find? upsert
  rw [List.find?_append]
  by_cases same : key r = k
  · subst same
    have gone : (t.rows.filter fun old => key old ≠ key r).find? (fun x => key x = key r) = none := by
      simp [List.find?_eq_none]
    rw [gone]
    simp
  · have kept : (t.rows.filter fun old => key old ≠ key r).find? (fun x => key x = k) =
        t.rows.find? fun x => key x = k := by
      rw [List.find?_filter]
      congr 1
      funext x
      by_cases here : key x = k <;> simp [here]
      exact fun same' => same same'.symm
    rw [kept]
    simp [same]

theorem find?_keep (t : Table key) (p : ρ → Bool) (k : κ) :
    (t.keep p).find? k = (t.find? k).filter p := by
  cases found : t.find? k with
  | none =>
    refine find?_eq_none_iff.mpr fun r inside => ?_
    exact find?_eq_none_iff.mp found r (List.mem_of_mem_filter inside)
  | some r =>
    obtain ⟨inside,same⟩ := find?_eq_some_iff.mp found
    by_cases kept : p r
    · rw [Option.filter_some_pos kept]
      exact find?_eq_some_iff.mpr ⟨List.mem_filter.mpr ⟨inside,kept⟩,same⟩
    · rw [Option.filter_some_neg (by simpa using kept)]
      refine find?_eq_none_iff.mpr fun other kept' same' => kept ?_
      obtain ⟨inside',holds⟩ := List.mem_filter.mp kept'
      rwa [List.inj_on_of_nodup_map t.distinct inside inside' (same.trans same'.symm)]

/-- A key that belongs to the rows that are kept is free among them where it is free at all. -/
theorem insert?_keep {t : Table key} {p : ρ → Bool} {r : ρ} (kept : ∀ old, key old = key r → p old) :
    (t.keep p).insert? r = (t.insert? r).map fun u => u.keep p := by
  cases inserted : t.insert? r with
  | some u =>
    obtain ⟨absent,rows⟩ := insert?_eq_some_iff.mp inserted
    refine insert?_eq_some_iff.mpr ⟨by rw [find?_keep,absent]; rfl,?_⟩
    simp [keep,rows,kept r rfl]
  | none =>
    rw [insert?,dite_eq_left_iff] at inserted
    have taken : key r ∈ t.rows.map key := by
      by_contra fresh
      cases inserted fresh
    obtain ⟨old,inside,same⟩ := List.mem_map.mp taken
    have taken' : key r ∈ (t.keep p).rows.map key :=
      List.mem_map.mpr ⟨old,List.mem_filter.mpr ⟨inside,kept old same⟩,same⟩
    rw [insert?,dif_pos taken']
    rfl

end Table

end RatifyOs.Data
