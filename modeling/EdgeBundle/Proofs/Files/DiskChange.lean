import EdgeBundle.Proofs.Files.DiskWay

/-!
# Changes of a disk

What an operation does if it does not fail. Folders are made and entries are moved and removed at
the places that their paths name, where a link is not followed; a content goes to the place that its
path leads to.

## Main definitions

* `Disk.Receives`: where a content goes that is written to a path.

## Main statements

* `Disk.exists_of_createFolder`, `Disk.exists_receives`, `Disk.exists_of_rename`,
  `Disk.exists_of_removeFile`: what an operation does if it does not fail.
* `Disk.Receives.keepsWays`: writing a content changes neither folders nor links.
* `Disk.readBytes_of_findParent`: the content of a file that a path names is read.
-/

namespace EdgeBundle.Disk

variable {disk disk' : Disk} {place folder : Place} {entry : DiskEntry}
  {name path source target : String} {bytes : List UInt8}

/-! ## Operations -/

theorem newPlace_eq_ok (h : disk.newPlace path = .ok place) :
    ∃ folder name, disk.namedPlace? path = some (folder ++ [name]) ∧
      disk.get? folder = some .folder ∧ disk.get? (folder ++ [name]) = none ∧
      place = folder ++ [name] := by
  simp only [newPlace, Except.bind_eq_ok_iff, Prod.exists] at h
  obtain ⟨folder, last, slash, hparent, h⟩ := h
  split at h
  next => cases h
  next name hname =>
    obtain ⟨rfl, hordinary⟩ := ordinaryName?_eq_some_iff.mp hname
    split at h
    next => cases h
    next =>
    split at h
    next => cases h
    next hfree =>
    exact ⟨folder, name, namedPlace?_eq_some_iff.mpr ⟨_, _, _, hparent, hordinary, rfl⟩,
      get?_of_findParent hparent, Option.not_isSome_iff_eq_none.mp hfree, (Except.ok.inj h).symm⟩

/-- A folder is made at the place that its path names, which is free and in a folder. -/
theorem exists_of_createFolder (h : disk.createFolder path = .ok disk') :
    ∃ folder name, disk.namedPlace? path = some (folder ++ [name]) ∧
      disk.get? folder = some .folder ∧ disk.get? (folder ++ [name]) = none ∧
      disk' = disk.set (folder ++ [name]) .folder := by
  obtain ⟨place, hplace, hdisk⟩ := Except.bind_eq_ok_iff.mp h
  obtain ⟨folder, name, hnamed, hfolder, hfree, rfl⟩ := newPlace_eq_ok hplace
  exact ⟨folder, name, hnamed, hfolder, hfree, (Except.ok.inj hdisk).symm⟩

/-- A content that is written to a path goes to a place. -/
inductive Receives (disk : Disk) (path : String) : Place → Prop where
  /-- The path leads to a file. -/
  | file {place : Place} {bytes : List UInt8} (h : disk.locate path = .ok (.entry place))
      (hfile : disk.get? place = some (.file bytes)) : Receives disk path place
  /-- The path leads to a name that is free in a folder. -/
  | free {folder : Place} {name : String} (h : disk.locate path = .ok (.free folder name false)) :
      Receives disk path (folder ++ [name])

theorem exists_receives (h : disk.writeBytes path bytes = .ok disk') :
    ∃ place, disk.Receives path place := by
  obtain ⟨found, hfound, h⟩ := Except.bind_eq_ok_iff.mp h
  split at h
  next folder name => exact ⟨_, .free hfound⟩
  next => cases h
  next place =>
    split at h
    next hfile => exact ⟨_, .file hfound hfile⟩
    next => cases h

namespace Receives

theorem writeBytes (h : disk.Receives path place) (bytes : List UInt8) :
    disk.writeBytes path bytes = .ok (disk.set place (.file bytes)) := by
  cases h with
  | file h hfile =>
    simp only [Disk.writeBytes, h, bind, Except.bind, hfile]
    rfl
  | free h =>
    simp only [Disk.writeBytes, h, bind, Except.bind]
    rfl

/-- A content goes into a folder, in place of another content or to a free name. -/
theorem exists_folder (h : disk.Receives path place) (htree : disk.IsTree) :
    ∃ folder name, place = folder ++ [name] ∧ disk.get? folder = some .folder ∧
      (disk.get? place = none ∨ ∃ bytes, disk.get? place = some (.file bytes)) := by
  cases h with
  | @file _ bytes h hfile =>
    rcases List.eq_nil_or_concat place with rfl | ⟨folder, name, rfl⟩
    · cases hfile
    · rw [List.concat_eq_append] at hfile ⊢
      exact ⟨folder, name, rfl, htree.get?_folder hfile, .inr ⟨bytes, hfile⟩⟩
  | @free folder name h =>
    obtain ⟨hfolder, hfree⟩ := htree.locate_isOn h
    exact ⟨folder, name, rfl, hfolder, .inl hfree⟩

theorem ne_nil (h : disk.Receives path place) (htree : disk.IsTree) : place ≠ [] := by
  obtain ⟨folder, name, rfl, -⟩ := h.exists_folder htree
  exact concat_ne_nil _ _

theorem isTree (h : disk.Receives path place) (htree : disk.IsTree) (bytes : List UInt8) :
    (disk.set place (.file bytes)).IsTree := by
  obtain ⟨folder, name, rfl, hfolder, hplace⟩ := h.exists_folder htree
  refine htree.set hfolder (fun h => ?_) _
  rcases hplace with hplace | ⟨bytes, hplace⟩ <;> rw [hplace] at h <;> cases h

/-- Writing a content changes neither folders nor links. -/
theorem keepsWays (h : disk.Receives path place) (htree : disk.IsTree) (bytes : List UInt8) :
    disk.KeepsWays (disk.set place (.file bytes)) where
  current_eq := rfl
  get?_eq other entry hkind hentry := by
    rw [get?_set (h.ne_nil htree), if_neg, hentry]
    rintro rfl
    obtain ⟨-, -, -, -, hplace | ⟨bytes, hplace⟩⟩ := h.exists_folder htree
    · rw [hplace] at hentry
      cases hentry
    · rw [hplace] at hentry
      exact hkind (Option.some.inj hentry ▸ rfl)

theorem keepsWays_symm (h : disk.Receives path place) (htree : disk.IsTree)
    (bytes : List UInt8) : (disk.set place (.file bytes)).KeepsWays disk where
  current_eq := rfl
  get?_eq other entry hkind hentry := by
    rw [get?_set (h.ne_nil htree)] at hentry
    split at hentry
    · exact absurd (Option.some.inj hentry ▸ rfl) hkind
    · exact hentry

end Receives

/-- What is moved, if it is no folder, takes the place that the target names in a folder. -/
theorem exists_of_rename (h : disk.rename source target = .ok disk')
    (hsource : ∀ folder name slash, disk.findParent source = .ok (folder, some name, slash) →
      (name ≠ "." ∧ name ≠ "..") → name.utf8ByteSize ≤ maxName →
      disk.get? (folder ++ [name]) ≠ some .folder) :
    ∃ old entry folder name, disk.namedPlace? source = some old ∧ disk.get? old = some entry ∧
      entry ≠ .folder ∧ disk.findParent target = .ok (folder, some name, false) ∧
      (name ≠ "." ∧ name ≠ "..") ∧ name.utf8ByteSize ≤ maxName ∧
      disk.get? (folder ++ [name]) ≠ some .folder ∧
      disk' = if old = folder ++ [name] then disk else disk.moveEntry old (folder ++ [name]) := by
  simp only [rename, Except.bind_eq_ok_iff, Prod.exists] at h
  obtain ⟨oldFolder, oldLast, oldSlash, hold, folder, last, slash, htarget, h⟩ := h
  split at h
  next oldName name holdName hname =>
    obtain ⟨rfl, holdOrdinary⟩ := ordinaryName?_eq_some_iff.mp holdName
    obtain ⟨rfl, hordinary⟩ := ordinaryName?_eq_some_iff.mp hname
    have hplace : disk.namedPlace? source = some (oldFolder ++ [oldName]) :=
      namedPlace?_eq_some_iff.mpr ⟨_, _, _, hold, holdOrdinary, rfl⟩
    split at h
    next => cases h
    next hsize =>
    rw [not_or, Nat.not_lt, Nat.not_lt] at hsize
    have hnotFolder := hsource _ _ _ hold holdOrdinary hsize.1
    split at h
    next => cases h
    next hfolder => exact absurd hfolder hnotFolder
    next entry hentryFolder hentry =>
    split at h
    next => cases h
    next hslash =>
    rw [Bool.or_eq_true, not_or, Bool.not_eq_true, Bool.not_eq_true] at hslash
    obtain ⟨-, rfl⟩ := hslash
    refine ⟨_, entry, folder, name, hplace, hentry,
      fun h => hentryFolder (h ▸ rfl), htarget, hordinary, hsize.2, ?_⟩
    split at h
    -- what is moved to its own place stays
    next hsame =>
      rw [← hsame, if_pos rfl]
      exact ⟨hnotFolder, (Except.ok.inj h).symm⟩
    next hmoves =>
      rw [if_neg hmoves]
      split at h
      next => cases h
      next hnew => exact ⟨hnew, (Except.ok.inj h).symm⟩
  next => cases h

/-- The file or the link that a path names is removed. -/
theorem exists_of_removeFile (h : disk.removeFile path = .ok disk') :
    ∃ place, disk.namedPlace? path = some place ∧ (disk.get? place).isSome ∧
      disk.get? place ≠ some .folder ∧ disk' = disk.erase place := by
  simp only [removeFile, Except.bind_eq_ok_iff, Prod.exists] at h
  obtain ⟨folder, last, slash, hparent, h⟩ := h
  split at h
  next => cases h
  next name hname =>
    obtain ⟨rfl, hordinary⟩ := ordinaryName?_eq_some_iff.mp hname
    refine ⟨folder ++ [name], namedPlace?_eq_some_iff.mpr ⟨_, _, _, hparent, hordinary, rfl⟩, ?_⟩
    split at h
    next => cases h
    next => cases h
    next entry hfolder hentry =>
    rw [hentry]
    split at h
    next => cases h
    next => exact ⟨rfl, fun h => hfolder (Option.some.inj h), (Except.ok.inj h).symm⟩

theorem removeFile_eq_ok (hparent : disk.findParent path = .ok (folder, some name, false))
    (hname : name ≠ "." ∧ name ≠ "..") (hentry : disk.get? (folder ++ [name]) = some entry)
    (hfolder : entry ≠ .folder) : disk.removeFile path = .ok (disk.erase (folder ++ [name])) := by
  simp only [removeFile, hparent, bind, Except.bind, ordinaryName?_eq_some_iff.mpr ⟨rfl, hname⟩,
    hentry]
  cases entry with
  | folder => exact absurd rfl hfolder
  | file bytes => rfl
  | link target => rfl

/-- The content of a file that a path names is read. -/
theorem readBytes_of_findParent (hparent : disk.findParent path = .ok (folder, some name, false))
    (hname : name ≠ "." ∧ name ≠ "..") (hsize : name.utf8ByteSize ≤ maxName)
    (hfile : disk.get? (folder ++ [name]) = some (.file bytes)) :
    disk.readBytes path = .ok bytes := by
  have hlocate := locate_of_findParent hparent hname hsize hfile nofun
  simp only [readBytes, find, hlocate, bind, Except.bind, pure, Except.pure, hfile]

end EdgeBundle.Disk
