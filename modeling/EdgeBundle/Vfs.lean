import EdgeBundle.Json.Printer
import EdgeBundle.Record

/-!
# Embedded files

The files that the bundle carries, as a map from path to content. Keys are kept in ascending order,
so the literal in the bundle and the order in which requests are matched do not depend on how the
map was built.
-/

namespace EdgeBundle

/-- Embedded files in ascending order of their paths. -/
structure Vfs where
  /-- Paths with contents. -/
  files : List (RelPath × String)
  /-- The paths ascend strictly. -/
  sorted : files.Pairwise fun a b => a.1.text < b.1.text

namespace Vfs

/-- No files. -/
def empty : Vfs := ⟨[], .nil⟩

instance : Inhabited Vfs := ⟨empty⟩

/-- Inserts a file into ascending files, in place of one with the same path. -/
def insertFile (path : RelPath) (content : String) :
    List (RelPath × String) → List (RelPath × String)
  | [] => [(path, content)]
  | f :: fs =>
    if path.text < f.1.text then (path, content) :: f :: fs
    else if path = f.1 then (path, content) :: fs
    else f :: insertFile path content fs

theorem mem_insertFile {path : RelPath} {content : String} {files : List (RelPath × String)}
    {f : RelPath × String} (h : f ∈ insertFile path content files) :
    f = (path, content) ∨ f ∈ files := by
  induction files with
  | nil => simpa [insertFile] using h
  | cons g gs ih =>
    simp only [insertFile] at h
    split at h
    · simpa using h
    · split at h
      · rcases List.mem_cons.1 h with h | h
        · exact .inl h
        · exact .inr (List.mem_cons_of_mem _ h)
      · rcases List.mem_cons.1 h with h | h
        · exact .inr (h ▸ List.mem_cons_self)
        · exact (ih h).imp_right (List.mem_cons_of_mem _)

theorem pairwise_insertFile (path : RelPath) (content : String)
    {files : List (RelPath × String)} (h : files.Pairwise fun a b => a.1.text < b.1.text) :
    (insertFile path content files).Pairwise fun a b => a.1.text < b.1.text := by
  induction files with
  | nil => simp [insertFile]
  | cons g gs ih =>
    have hg := List.pairwise_cons.1 h
    simp only [insertFile]
    split
    -- the new file comes before all others
    next hlt =>
      refine List.pairwise_cons.2 ⟨fun a ha => ?_, h⟩
      rcases List.mem_cons.1 ha with rfl | ha
      · exact hlt
      · exact String.lt_trans hlt (hg.1 a ha)
    next hnlt =>
      split
      -- it takes the place of the file with its path
      next heq => exact List.pairwise_cons.2 ⟨fun a ha => heq ▸ hg.1 a ha, hg.2⟩
      -- it goes further back
      next hne =>
        refine List.pairwise_cons.2 ⟨fun a ha => ?_, ih hg.2⟩
        rcases mem_insertFile ha with rfl | ha
        · have hle : g.1.text ≤ path.text := String.not_lt.1 hnlt
          have hne : g.1.text ≠ path.text := by
            intro e
            apply hne
            have : path.text = g.1.text := e.symm
            cases path
            cases hgp : g.1
            simp_all
          exact Std.lt_of_le_of_ne hle hne
        · exact hg.1 a ha

/-- Puts a file under its path; a file that was there is replaced. -/
def insert (vfs : Vfs) (path : RelPath) (content : String) : Vfs :=
  ⟨insertFile path content vfs.files, pairwise_insertFile path content vfs.sorted⟩

/-- Content under exactly the given path. -/
def get? (vfs : Vfs) (path : String) : Option String :=
  (vfs.files.find? fun f => f.1.text == path).map Prod.snd

/-- Number of files. -/
def size (vfs : Vfs) : Nat :=
  vfs.files.length

/-- Whether there are no files. -/
def isEmpty (vfs : Vfs) : Bool :=
  vfs.files.isEmpty

/-- Paths in ascending order. -/
def paths (vfs : Vfs) : List RelPath :=
  vfs.files.map Prod.fst

/-- Bytes of all contents together. -/
def totalBytes (vfs : Vfs) : Nat :=
  vfs.files.foldr (fun f n => f.2.utf8ByteSize + n) 0

/-- The files as one JSON object on one line. -/
def literal (vfs : Vfs) : String :=
  (Json.object (vfs.files.map fun f => (f.1.text, .string f.2))).compact

/-- The files of records; of equal paths the last record counts. -/
def ofRecords (records : List Record) : Vfs :=
  records.foldl (fun vfs r => vfs.insert r.path r.content) empty

end Vfs

end EdgeBundle
