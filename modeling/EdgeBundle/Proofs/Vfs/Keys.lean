import EdgeBundle.Vfs
import Mathlib.Data.List.Dedup
import Mathlib.Data.List.Perm.Basic

/-!
# Paths of embedded files

Inserting a file adds its path to the paths of the map and keeps all others; a file under a path
that is there already replaces the one before it. So the files of records are as many as the records
have different paths.

## Main definitions

* `Record.replacedCount`: records whose path a later record has.

## Main statements

* `mem_paths_ofRecords`: the paths of embedded records, and no others.
* `size_ofRecords_add_replacedCount`: every record is an embedded file or has been replaced.
-/

namespace EdgeBundle

/-- Number of records whose path a later record of the list has. -/
def Record.replacedCount : List Record → Nat
  | [] => 0
  | r :: rs =>
    if r.path ∈ rs.map Record.path then replacedCount rs + 1 else replacedCount rs

namespace Vfs

/-! ## Inserting a file -/

theorem mem_map_fst_insertFile {path p : RelPath} {content : String}
    {files : List (RelPath × String)} :
    p ∈ (insertFile path content files).map Prod.fst ↔ p = path ∨ p ∈ files.map Prod.fst := by
  induction files with
  | nil => simp [insertFile]
  | cons f fs ih =>
    rw [insertFile]
    split
    next => simp
    split
    -- the path is the one of the file that is replaced
    next heq => simp [heq]
    next =>
      rw [List.map_cons, List.mem_cons, ih, List.map_cons, List.mem_cons]
      exact or_left_comm

/-- The paths after a file has been put in. -/
@[simp]
theorem mem_paths_insert {vfs : Vfs} {path p : RelPath} {content : String} :
    p ∈ (vfs.insert path content).paths ↔ p = path ∨ p ∈ vfs.paths :=
  mem_map_fst_insertFile

@[simp]
theorem paths_empty : empty.paths = [] := rfl

/-- No path comes twice. -/
theorem nodup_paths (vfs : Vfs) : vfs.paths.Nodup := by
  rw [paths, List.Nodup, List.pairwise_map]
  refine vfs.sorted.imp fun {a b} hlt heq => ?_
  rw [heq] at hlt
  exact String.lt_irrefl _ hlt

theorem length_paths (vfs : Vfs) : vfs.paths.length = vfs.size :=
  List.length_map _

/-! ## Files of records -/

theorem mem_paths_foldl_insert {vfs : Vfs} {records : List Record} {p : RelPath} :
    p ∈ (records.foldl (fun vfs r => vfs.insert r.path r.content) vfs).paths ↔
      p ∈ records.map Record.path ∨ p ∈ vfs.paths := by
  induction records generalizing vfs with
  | nil => simp
  | cons r rs ih =>
    rw [List.foldl_cons, ih, mem_paths_insert, List.map_cons, List.mem_cons]
    exact or_left_comm.trans or_assoc.symm

/-- The paths of the files of records are the paths of the records. -/
theorem mem_paths_ofRecords {records : List Record} {p : RelPath} :
    p ∈ (ofRecords records).paths ↔ p ∈ records.map Record.path := by
  rw [ofRecords, mem_paths_foldl_insert, paths_empty]
  simp

/-- There is one file for every path that records have. -/
theorem size_ofRecords (records : List Record) :
    (ofRecords records).size = (records.map Record.path).dedup.length := by
  rw [← length_paths]
  refine List.Perm.length_eq ?_
  rw [List.perm_ext_iff_of_nodup (nodup_paths _) (List.nodup_dedup _)]
  intro p
  rw [mem_paths_ofRecords, List.mem_dedup]

/-- Every record is an embedded file or has been replaced by a later record. -/
theorem size_ofRecords_add_replacedCount (records : List Record) :
    (ofRecords records).size + Record.replacedCount records = records.length := by
  rw [size_ofRecords]
  induction records with
  | nil => rfl
  | cons r rs ih =>
    rw [List.map_cons, Record.replacedCount, List.length_cons]
    split
    next hmem => rw [List.dedup_cons_of_mem hmem, ← Nat.add_assoc, ih]
    next hmem =>
      rw [List.dedup_cons_of_notMem hmem, List.length_cons]
      omega

end Vfs

end EdgeBundle
