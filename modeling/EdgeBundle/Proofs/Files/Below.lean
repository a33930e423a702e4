import EdgeBundle.Files.Collect
import EdgeBundle.Proofs.Path.Canonical
import EdgeBundle.Proofs.Vfs.Content

/-!
# Files below a folder

A file below a folder is known by the names on the way to it. The names are put together to a path,
which is read like any other text: a backslash in a name becomes a slash, and a drive at the start
is refused. So names with backslashes may meet, and all others have keys of their own.

## Main definitions

* `Below`: a file lies below a folder, with the names on the way to it.
* `Origin.head`: what stands before the paths of a tree.

## Main statements

* `Below.exists_relativeTo_iff` and `Below.relativeTo_inj`: which files have a path, and which files
  have the same one.
* `Below.recordPath_eq`: the key of a file whose names are plain.
* `relativeTo_distinct`: keys of two files below one folder.
-/

namespace EdgeBundle

/-- What stands before the paths of the files of a tree. -/
def Origin.head : Origin → String
  | serverTree => ""
  | publicTree => RelPath.publicHead

/-- A file lies below a folder: its path goes on from the path of the folder with the given
names. -/
structure Below (root file : String) (names : List (List Char)) : Prop where
  /-- The file is not the folder itself. -/
  names_ne_nil : names ≠ []
  /-- The path of the file is the path of the folder and the names. -/
  components_eq : NativePath.components file.toList =
    NativePath.components root.toList ++ names.map .name

namespace Below

variable {root file file' : String} {names names' : List (List Char)}

theorem isOrdinary (h : Below root file names) :
    ∀ n ∈ names, RelPath.isOrdinary n = true ∧ '/' ∉ n := by
  intro n hn
  have hmem : NativePath.Component.name n ∈ NativePath.components file.toList := by
    rw [h.components_eq]
    exact List.mem_append_right _ (List.mem_map_of_mem hn)
  exact NativePath.isOrdinary_of_name_mem hmem

/-- The names on the way to a file are put together and read as a path. -/
theorem relativeTo_eq_ok_iff (h : Below root file names) {p : RelPath} :
    RelPath.relativeTo root file = .ok p ↔ RelPath.normalize (joinSegments names) = p.chars := by
  rw [RelPath.relativeTo_of_components h.components_eq, RelPath.ofText_eq_ok_iff,
    String.toList_ofList]

/-- A file has a path if the plain form of its names starts with no drive and all segments of it
name something. -/
theorem exists_relativeTo_iff (h : Below root file names) :
    (∃ p, RelPath.relativeTo root file = .ok p) ↔
      RelPath.hasDrive (RelPath.normalize (joinSegments names)) = false ∧
        ∀ s ∈ segments (RelPath.normalize (joinSegments names)), RelPath.isOrdinary s = true := by
  rw [RelPath.relativeTo_of_components h.components_eq, RelPath.exists_ofText_iff,
    String.toList_ofList]

/-- Two files have the same path if their names have the same plain form. -/
theorem relativeTo_inj (h : Below root file names) (h' : Below root file' names') {p p' : RelPath}
    (hp : RelPath.relativeTo root file = .ok p) (hp' : RelPath.relativeTo root file' = .ok p') :
    p = p' ↔
      RelPath.normalize (joinSegments names) = RelPath.normalize (joinSegments names') := by
  rw [h.relativeTo_eq_ok_iff.mp hp, h'.relativeTo_eq_ok_iff.mp hp']
  exact ⟨congrArg RelPath.chars, RelPath.ext_chars⟩

/-- The key of a file is put together from its names, if these have no backslash and start with no
drive. -/
theorem recordPath_eq (h : Below root file names) (hbackslash : ∀ n ∈ names, '\\' ∉ n)
    (hdrive : RelPath.hasDrive (joinSegments names) = false) (origin : Origin) :
    ∃ p, Collect.recordPath root origin file = .ok p ∧
      p.chars = origin.head.toList ++ joinSegments names := by
  have hplain := RelPath.normalize_joinSegments h.isOrdinary hbackslash
  have hsegments := segments_joinSegments (fun n hn => (h.isOrdinary n hn).2) h.names_ne_nil
  obtain ⟨p, hp⟩ := h.exists_relativeTo_iff.mpr (by
    rw [hplain, hsegments]
    exact ⟨hdrive, fun n hn => (h.isOrdinary n hn).1⟩)
  have hchars : p.chars = joinSegments names :=
    (h.relativeTo_eq_ok_iff.mp hp).symm.trans hplain
  rw [Collect.recordPath, hp]
  cases origin with
  | serverTree => exact ⟨p, rfl, hchars⟩
  -- a path has no drive and no backslash of its own, so the head is always accepted
  | publicTree =>
    obtain ⟨q, hq, htext⟩ := p.exists_withHead_publicHead
    refine ⟨q, hq, ?_⟩
    rw [RelPath.chars, htext, String.toList_append, ← hchars]
    rfl

/-- Names are told apart by the path that they are put together to. -/
theorem eq_of_joinSegments_eq (h : Below root file names) (h' : Below root file' names')
    (hjoin : joinSegments names = joinSegments names') : names = names' := by
  rw [← segments_joinSegments (fun n hn => (h.isOrdinary n hn).2) h.names_ne_nil, hjoin,
    segments_joinSegments (fun n hn => (h'.isOrdinary n hn).2) h'.names_ne_nil]

/-- Different files have different keys, if their names have no backslash and start with no
drive. -/
theorem exists_recordPath_ne (h : Below root file names) (h' : Below root file' names')
    (hne : names ≠ names') (hbackslash : ∀ n ∈ names ++ names', '\\' ∉ n)
    (hdrive : RelPath.hasDrive (joinSegments names) = false)
    (hdrive' : RelPath.hasDrive (joinSegments names') = false) (origin : Origin) :
    ∃ p p', Collect.recordPath root origin file = .ok p ∧
      Collect.recordPath root origin file' = .ok p' ∧ p ≠ p' := by
  obtain ⟨hleft, hright⟩ := List.forall_mem_append.mp hbackslash
  obtain ⟨p, hp, hchars⟩ := h.recordPath_eq hleft hdrive origin
  obtain ⟨p', hp', hchars'⟩ := h'.recordPath_eq hright hdrive' origin
  refine ⟨p, p', hp, hp', ?_⟩
  rintro rfl
  exact hne (h.eq_of_joinSegments_eq h' (List.append_cancel_left (hchars.symm.trans hchars')))

end Below

/-- A file of the server tree is known by its path below the folder of the tree. -/
theorem Collect.recordPath_serverTree (root file : String) :
    recordPath root .serverTree file = RelPath.relativeTo root file := by
  rw [recordPath]
  cases RelPath.relativeTo root file <;> rfl

/-- A file that is put in under another path does not take the place of a file. -/
theorem Vfs.get?_insert_insert {p p' : RelPath} (hne : p ≠ p') (vfs : Vfs)
    (content content' : String) :
    ((vfs.insert p content).insert p' content').get? p.text = some content := by
  have htext : p'.text ≠ p.text := fun h => hne (RelPath.ext h.symm)
  rw [get?_insert, if_neg htext, get?_insert, if_pos rfl]

/-- The keys of two files below one folder. A file has a path if the plain form of its names starts
with no drive and all segments of it name something, and two paths are the same if these forms are.
So files without backslashes and drives in their names have keys of their own in either tree, and
none takes the place of another. -/
theorem relativeTo_distinct {root file file' : String} {names names' : List (List Char)}
    (h : Below root file names) (h' : Below root file' names') :
    ((∃ p, RelPath.relativeTo root file = .ok p) ↔
      RelPath.hasDrive (RelPath.normalize (joinSegments names)) = false ∧
        ∀ s ∈ segments (RelPath.normalize (joinSegments names)), RelPath.isOrdinary s = true) ∧
    (∀ p p', RelPath.relativeTo root file = .ok p → RelPath.relativeTo root file' = .ok p' →
      (p = p' ↔
        RelPath.normalize (joinSegments names) = RelPath.normalize (joinSegments names'))) ∧
    (names ≠ names' → (∀ n ∈ names ++ names', '\\' ∉ n) →
      RelPath.hasDrive (joinSegments names) = false →
      RelPath.hasDrive (joinSegments names') = false →
      (∃ p p', RelPath.relativeTo root file = .ok p ∧ RelPath.relativeTo root file' = .ok p' ∧
        p ≠ p') ∧
      ∀ origin, ∃ p p', Collect.recordPath root origin file = .ok p ∧
        Collect.recordPath root origin file' = .ok p' ∧ p ≠ p' ∧
        ∀ (vfs : Vfs) content content',
          ((vfs.insert p content).insert p' content').get? p.text = some content) := by
  refine ⟨h.exists_relativeTo_iff, fun p p' => h.relativeTo_inj h',
    fun hne hbackslash hdrive hdrive' => ?_⟩
  have hkeys := h.exists_recordPath_ne h' hne hbackslash hdrive hdrive'
  constructor
  · simpa only [Collect.recordPath_serverTree] using hkeys .serverTree
  · intro origin
    obtain ⟨p, p', hp, hp', hdistinct⟩ := hkeys origin
    exact ⟨p, p', hp, hp', hdistinct, fun vfs => Vfs.get?_insert_insert hdistinct vfs⟩

/-- A folder before a file in the order of full paths, and names that start alike. -/
theorem relativeTo_distinct_chunks :
    Below "/srv/out" "/srv/out/a/b.mjs" ["a".toList, "b.mjs".toList] ∧
      Below "/srv/out" "/srv/out/a.mjs" ["a.mjs".toList] ∧
      ∃ p p', Collect.recordPath "/srv/out" .publicTree "/srv/out/a/b.mjs" = .ok p ∧
        Collect.recordPath "/srv/out" .publicTree "/srv/out/a.mjs" = .ok p' ∧ p ≠ p' ∧
        ∀ (vfs : Vfs) content content',
          ((vfs.insert p content).insert p' content').get? p.text = some content := by
  have h : Below "/srv/out" "/srv/out/a/b.mjs" ["a".toList, "b.mjs".toList] :=
    ⟨by decide, by decide⟩
  have h' : Below "/srv/out" "/srv/out/a.mjs" ["a.mjs".toList] := ⟨by decide, by decide⟩
  obtain ⟨-, -, hplain⟩ := relativeTo_distinct h h'
  exact ⟨h, h', (hplain (by decide) (by decide) (by decide) (by decide)).2 .publicTree⟩

/-- A backslash in a name is read as a slash, so two files below one folder have one path, and a
name that looks like a drive has none. -/
theorem relativeTo_backslash_meets :
    Below "/srv/out" "/srv/out/a/b" ["a".toList, "b".toList] ∧
      Below "/srv/out" "/srv/out/a\\b" ["a\\b".toList] ∧
      Below "/srv/out" "/srv/out/c:" ["c:".toList] ∧
      (∃ p, RelPath.relativeTo "/srv/out" "/srv/out/a/b" = .ok p ∧
        RelPath.relativeTo "/srv/out" "/srv/out/a\\b" = .ok p) ∧
      RelPath.relativeTo "/srv/out" "/srv/out/c:" = .error (.pathNotRelative "c:") := by
  have hslash : RelPath.relativeTo "/srv/out" "/srv/out/a/b" = .ok ⟨"a/b", by decide⟩ := by decide
  have hbackslash : RelPath.relativeTo "/srv/out" "/srv/out/a\\b" = .ok ⟨"a/b", by decide⟩ := by
    decide
  exact ⟨⟨by decide, by decide⟩, ⟨by decide, by decide⟩, ⟨by decide, by decide⟩,
    ⟨_, hslash, hbackslash⟩, by decide⟩

end EdgeBundle
