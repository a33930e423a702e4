import EdgeBundle.Proofs.Files.DiskPlace

/-!
# Temporary files

A file is written through a temporary file beside it, which has a longer name. On a disk without
links it is at a place of its own; once it is written it can be removed, and if it is moved, only it
and the file that it is for have changed.

## Main statements

* `Disk.exists_placeOf_temporary`: the place of a temporary file.
* `Disk.Receives.removeFile_temporary`: a temporary file that is written can be removed.
* `Disk.Receives.get?_of_rename`: what stands on a disk after it is moved into place.
-/

namespace EdgeBundle.Disk

open Collect

variable {disk disk' : Disk} {place : Place} {name path temporary : String} {bytes : List UInt8}

/-! ## Names of temporary files -/

theorem getLast?_components_of_fileName? {cs name : List Char}
    (h : NativePath.fileName? cs = some name) :
    (NativePath.components cs).getLast? = some (.name name) := by
  rw [NativePath.fileName?] at h
  split at h
  next hlast => rw [hlast, Option.some.inj h]
  next => cases h

/-- Whoever has a file name has a parent. -/
theorem exists_parent?_of_fileName? {cs name : List Char}
    (h : NativePath.fileName? cs = some name) : ∃ above, NativePath.parent? cs = some above := by
  rw [NativePath.parent?, getLast?_components_of_fileName? h]
  exact ⟨_, rfl⟩

/-- The name of a temporary file is a segment of its own. -/
theorem isOrdinary_temporary {stem : List Char} (h : NativePath.fileName? path.toList = some stem) :
    RelPath.isOrdinary (stem ++ ".tmp".toList) = true ∧ '/' ∉ stem ++ ".tmp".toList := by
  have hlength : 4 ≤ (stem ++ ".tmp".toList).length := by
    rw [List.length_append]
    exact Nat.le_add_left _ _
  have hslash := (NativePath.isOrdinary_of_name_mem
    (List.mem_of_getLast? (getLast?_components_of_fileName? h))).2
  refine ⟨RelPath.isOrdinary_iff.mpr ⟨?_, ?_, ?_⟩,
    List.mem_append.not.mpr (not_or.mpr ⟨hslash, by decide⟩)⟩ <;>
  · intro h
    rw [h] at hlength
    exact absurd hlength (by decide)

/-- A temporary file has a longer name in the same folder. -/
theorem components_of_temporaryPath? (h : temporaryPath? path = some temporary) :
    ∃ stem, NativePath.components path.toList =
        (NativePath.components path.toList).dropLast ++ [.name stem] ∧
      NativePath.components temporary.toList =
        (NativePath.components path.toList).dropLast ++ [.name (stem ++ ".tmp".toList)] := by
  obtain ⟨stem, hstem, rfl⟩ := Option.map_eq_some_iff.mp h
  obtain ⟨above, habove⟩ := exists_parent?_of_fileName? hstem
  obtain ⟨hordinary, hslash⟩ := isOrdinary_temporary hstem
  refine ⟨stem, (List.dropLast_append_getLast? _ (getLast?_components_of_fileName? hstem)).symm, ?_⟩
  rw [String.toList_ofList, NativePath.withFileName, hstem, habove, Option.getD_some,
    NativePath.components_join _ hordinary hslash, NativePath.components_of_parent? habove]

/-- A temporary file is in the same folder as the file that it is for, under a longer name. -/
theorem exists_placeOf_temporary (disk : Disk) (h : temporaryPath? path = some temporary) :
    ∃ folder stem, disk.placeOf path = folder ++ [stem] ∧
      disk.placeOf temporary = folder ++ [stem ++ ".tmp"] := by
  obtain ⟨stem, hpath, htemporary⟩ := components_of_temporaryPath? h
  refine ⟨((NativePath.components path.toList).dropLast).foldl stride disk.current,
    String.ofList stem, ?_, ?_⟩
  · rw [placeOf_eq, hpath, List.foldl_append, List.dropLast_concat]
    rfl
  · rw [placeOf_eq, htemporary, List.foldl_append, ← String.ofList_append]
    rfl

/-- A temporary file is not at the place of the file that it is for. -/
theorem placeOf_temporary_ne (h : temporaryPath? path = some temporary) :
    disk.placeOf temporary ≠ disk.placeOf path := by
  obtain ⟨folder, stem, hpath, htemporary⟩ := exists_placeOf_temporary disk h
  rw [hpath, htemporary]
  intro heq
  have hlength := congrArg String.length (List.singleton_inj.mp (List.append_inj' heq rfl).2)
  rw [String.length_append] at hlength
  exact absurd (Nat.add_eq_left.mp hlength) (by decide)

/-- A name that is joined to a path is its last segment. -/
theorem exists_segmentsOf_childPath (path : String) (hslash : '/' ∉ name.toList) :
    ∃ before, segmentsOf (childPath path name) = before ++ [name] := by
  by_cases hpath : path = ""
  · refine ⟨[], ?_⟩
    rw [segmentsOf, childPath, String.toList_ofList, NativePath.join_of_slash_not_mem _ hslash,
      if_pos (.inl (String.toList_eq_nil_iff.mpr hpath)), hpath, String.toList_empty,
      List.nil_append, segments_of_slash_not_mem hslash, List.map_singleton, String.ofList_toList]
    rfl
  · obtain ⟨before, -, -, -, hchild⟩ := segmentsOf_childPath hpath hslash
    exact ⟨before, hchild⟩

/-- The last segment of a temporary path is its file name. -/
theorem exists_segmentsOf_temporary (h : temporaryPath? path = some temporary) :
    ∃ before name, (name ≠ "" ∧ name ≠ "." ∧ name ≠ "..") ∧
      segmentsOf temporary = before ++ [name] := by
  obtain ⟨stem, hstem, rfl⟩ := Option.map_eq_some_iff.mp h
  obtain ⟨hordinary, hslash⟩ := isOrdinary_temporary hstem
  rw [← String.toList_ofList (l := stem ++ _)] at hslash
  obtain ⟨before, hbefore⟩ := exists_segmentsOf_childPath
    (String.ofList ((NativePath.parent? path.toList).getD [])) hslash
  refine ⟨before, String.ofList (stem ++ ".tmp".toList), ?_, ?_⟩
  · obtain ⟨hempty, hdot, hup⟩ := RelPath.isOrdinary_iff.mp hordinary
    exact ⟨mt String.ofList_inj.mp hempty, mt String.ofList_inj.mp hdot,
      mt String.ofList_inj.mp hup⟩
  · rw [childPath, String.toList_ofList, String.toList_ofList] at hbefore
    rw [NativePath.withFileName, hstem]
    exact hbefore

/-! ## Temporary files on a disk -/

/-- No slash follows the name of a temporary file. -/
theorem trimmed_segmentsOf_temporary (h : temporaryPath? path = some temporary) :
    trimmed (segmentsOf temporary) = segmentsOf temporary := by
  obtain ⟨before, name, hordinary, hsegments⟩ := exists_segmentsOf_temporary h
  rw [hsegments, trimmed_concat before hordinary.1]

/-- Where a temporary file is written, no folder is moved in its place. -/
theorem Receives.source_ne_folder (h : disk.Receives temporary place) (htree : disk.IsTree)
    (htemporary : temporaryPath? path = some temporary) (bytes : List UInt8)
    (folder : Place) (name : String) (slash : Bool)
    (hparent : (disk.set place (.file bytes)).findParent temporary = .ok (folder, some name, slash))
    (hname : name ≠ "." ∧ name ≠ "..") (hsize : name.utf8ByteSize ≤ maxName) :
    (disk.set place (.file bytes)).get? (folder ++ [name]) ≠ some .folder := by
  intro hset
  have hways := h.keepsWays_symm htree bytes
  have hfolder := hways.get?_eq _ .folder nofun hset
  have hparent' := hways.findParent_eq_ok hparent
  obtain ⟨_, way, hstart, -, -, -, hslash⟩ := findParent_eq_ok_iff.mp hparent'
  obtain ⟨-, -, rfl⟩ := of_start hstart
  rw [trimmed_segmentsOf_temporary htemporary, decide_eq_false (Nat.lt_irrefl _)] at hslash
  subst hslash
  -- the content would go to the folder
  have hlocate := locate_of_findParent hparent' hname hsize hfolder nofun
  cases h with
  | file h hfile =>
    cases h.symm.trans hlocate
    rw [hfolder] at hfile
    cases hfile
  | free h => cases h.symm.trans hlocate

/-- A temporary file that is written is named by its path. -/
theorem Receives.findParent_temporary (h : disk.Receives temporary place) (htree : disk.IsTree)
    (hlinks : disk.LinkFree) (htemporary : temporaryPath? path = some temporary) :
    ∃ folder name, disk.findParent temporary = .ok (folder, some name, false) ∧
      (name ≠ "." ∧ name ≠ "..") ∧ place = folder ++ [name] := by
  obtain ⟨before, name, hordinary, hsegments⟩ := exists_segmentsOf_temporary htemporary
  have hlocate : ∃ found, disk.locate temporary = .ok found := by
    cases h with
    | file h => exact ⟨_, h⟩
    | free h => exact ⟨_, h⟩
  obtain ⟨found, hlocate⟩ := hlocate
  obtain ⟨⟨here, way⟩, hstart, hresolve⟩ := Except.bind_eq_ok_iff.mp hlocate
  obtain ⟨-, -, rfl⟩ := of_start hstart
  have htrimmed := trimmed_concat before hordinary.1
  rw [hsegments] at hstart
  -- without links the way to the file is the way to its folder and one step more
  obtain ⟨folder, hfolder, hget⟩ :=
    hlinks.resolve_concat htree hordinary (htree.get?_start hstart) (hsegments ▸ hresolve)
  have hparent : disk.findParent temporary = .ok (folder, some name, false) := by
    refine findParent_eq_ok_iff.mpr ⟨here, _, hstart, ?_, hget, ?_, ?_⟩
    · rw [htrimmed, List.dropLast_concat]
      exact hfolder
    · rw [htrimmed, List.getLast?_concat]
    · rw [htrimmed]
      exact (decide_eq_false (Nat.lt_irrefl _)).symm
  refine ⟨folder, _, hparent, hordinary.2, ?_⟩
  have hnamed := namedPlace?_eq_some_iff.mpr ⟨_, _, _, hparent, hordinary.2, rfl⟩
  rw [h.eq_placeOf hlinks, hlinks.eq_placeOf hnamed]

/-- A temporary file that is written can be removed. -/
theorem Receives.removeFile_temporary (h : disk.Receives temporary place) (htree : disk.IsTree)
    (hlinks : disk.LinkFree) (htemporary : temporaryPath? path = some temporary)
    (bytes : List UInt8) :
    (disk.set place (.file bytes)).removeFile temporary =
      .ok ((disk.set place (.file bytes)).erase place) := by
  obtain ⟨folder, name, hparent, hname, rfl⟩ := h.findParent_temporary htree hlinks htemporary
  refine removeFile_eq_ok ((h.keepsWays htree bytes).findParent_eq_ok hparent) hname
    (get?_set (concat_ne_nil _ _) _ |>.trans (if_pos rfl)) nofun

/-- A temporary file that is moved is at the place of the file that it is for, its own place is free
again, and nothing else has changed. -/
theorem Receives.get?_of_rename (h : disk.Receives temporary place) (htree : disk.IsTree)
    (hlinks : disk.LinkFree) (htemporary : temporaryPath? path = some temporary)
    (hrename : (disk.set place (.file bytes)).rename temporary path = .ok disk') :
    (∀ other, disk'.get? other =
      if other = disk.placeOf path then some (.file bytes)
      else if other = disk.placeOf temporary then none else disk.get? other) ∧
      disk'.readBytes path = .ok bytes := by
  have hplace := h.eq_placeOf hlinks
  have hplaceNil := h.ne_nil htree
  have hwritten : (disk.set place (.file bytes)).get? place = some (.file bytes) := by
    rw [get?_set hplaceNil, if_pos rfl]
  have hlinks' : (disk.set place (.file bytes)).LinkFree := fun other target hlink =>
    hlinks other target ((h.keepsWays_symm htree bytes).get?_eq _ _ nofun hlink)
  have htree' := h.isTree htree bytes
  obtain ⟨old, entry, folder, name, hold, hentry, hfolder, hparent, hname, hsize, hnew, hmoved⟩ :=
    exists_of_rename hrename (h.source_ne_folder htree htemporary bytes)
  have hnamed := namedPlace?_eq_some_iff.mpr ⟨_, _, _, hparent, hname, rfl⟩
  -- both places can be read off the paths
  have hold_eq : old = place := (hlinks'.eq_placeOf hold).trans hplace.symm
  have hnew_eq : folder ++ [name] = disk.placeOf path := hlinks'.eq_placeOf hnamed
  subst hold_eq
  have hne : old ≠ folder ++ [name] := by
    rw [hnew_eq, hplace]
    exact placeOf_temporary_ne htemporary
  rw [if_neg hne] at hmoved
  subst hmoved
  rw [hwritten] at hentry
  cases hentry
  have hget := get?_moveEntry htree' hwritten nofun hne (concat_ne_nil _ _)
  refine ⟨fun other => ?_, ?_⟩
  · rw [hget other, get?_set hplaceNil, hnew_eq, ← hplace]
    grind
  · have hways : (disk.set old (.file bytes)).KeepsWays
        ((disk.set old (.file bytes)).moveEntry old (folder ++ [name])) := by
      refine ⟨rfl, fun other entry hkind hother => ?_⟩
      cases entry with
      | file _ => exact absurd rfl hkind
      | link target => exact absurd hother (hlinks' _ _)
      | folder =>
        rw [hget other, if_neg, if_neg, hother]
        · rintro rfl
          rw [hwritten] at hother
          cases hother
        · rintro rfl
          exact hnew hother
    refine readBytes_of_findParent (hways.findParent_eq_ok hparent) hname hsize ?_
    rw [hget, if_pos rfl]

end EdgeBundle.Disk
