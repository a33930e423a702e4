import EdgeBundle.Proofs.Files.Session
import EdgeBundle.Proofs.Files.Temporary

/-!
# Files are written atomically

Whatever fails while a file is written, and wherever it is stopped, what stood at its place is there
unless the whole content is. After a failure the temporary file is gone, and after a success the
content is there.

## Main definitions

* `Disk.KeepsAt`: what stands at a place has not changed while folders were made.
* `Disk.Grown`: a disk on which folders around a file were made.

## Main statements

* `Disk.Grown.createFolder`: what one more folder changes.
* `writeAtomic_atomic`: all states of a disk while a file is written.
-/

namespace EdgeBundle

namespace Disk

variable {disk disk' next : Disk} {place : Place} {out path folder : String}

/-! ## Folders around a file -/

/-- What stands at a place is what stood there. Where nothing stood, a folder may be there that is
one of those around a file: a path such as `x/../x` leads through its own place. -/
def KeepsAt (disk : Disk) (out : String) (disk' : Disk) (place : Place) : Prop :=
  disk'.get? place = disk.get? place ∨
    (disk.get? place = none ∧ disk'.get? place = some .folder ∧
      ∃ folder ∈ foldersAround out, disk.placeOf folder = place)

/-- A disk on which folders around a file were made. -/
structure Grown (disk : Disk) (out : String) (disk' : Disk) : Prop where
  /-- The disk is still a tree. -/
  isTree : disk'.IsTree
  /-- The current folder is the same. -/
  current_eq : disk'.current = disk.current
  /-- Nothing else has changed. -/
  keepsAt : ∀ place, disk.KeepsAt out disk' place

theorem KeepsAt.congr (h : disk.KeepsAt out disk' place)
    (heq : next.get? place = disk'.get? place) : disk.KeepsAt out next place := by
  rwa [KeepsAt, heq]

/-- Where a path has no steps up, neither the place of the file nor that of the temporary file is
one of those of the folders around it. -/
theorem KeepsAt.get?_eq (h : disk.KeepsAt out disk' place) (hup : ".." ∉ segmentsOf out)
    (hplace : place = disk.placeOf out ∨
      ∃ temporary, temporaryPath? out = some temporary ∧ place = disk.placeOf temporary) :
    disk'.get? place = disk.get? place := by
  refine h.resolve_right ?_
  rintro ⟨-, -, folder, hfolder, hfolderPlace⟩
  obtain ⟨rest, hrest, hout⟩ := exists_placeOf_of_mem_foldersAround disk hup hfolder
  have hlength : place.length = (disk.placeOf out).length := by
    rcases hplace with rfl | ⟨temporary, htemporary, rfl⟩
    · rfl
    · obtain ⟨parent, stem, hpath, htemp⟩ := exists_placeOf_temporary disk htemporary
      rw [hpath, htemp, List.length_append, List.length_append]
      rfl
  rw [hout, List.length_append, hfolderPlace, Nat.left_eq_add] at hlength
  exact hrest (List.length_eq_zero_iff.mp hlength)

theorem Grown.refl (htree : disk.IsTree) (out : String) : disk.Grown out disk :=
  ⟨htree, rfl, fun _ => .inl rfl⟩

namespace Grown

variable (h : disk.Grown out disk')

include h

theorem linkFree (hlinks : disk.LinkFree) : disk'.LinkFree := by
  intro place target hlink
  rcases h.keepsAt place with heq | ⟨-, hfolder, -⟩
  · exact hlinks place target (heq ▸ hlink)
  · rw [hfolder] at hlink
    cases hlink

theorem placeOf_eq (path : String) : disk'.placeOf path = disk.placeOf path := by
  rw [placeOf, placeOf, h.current_eq]

theorem get?_eq_none (hplace : disk'.get? place = none) : disk.get? place = none := by
  rcases h.keepsAt place with heq | ⟨hnone, -⟩
  · rw [← heq, hplace]
  · exact hnone

/-- Making a folder around the file is one more such change. -/
theorem createFolder (hlinks : disk.LinkFree) (hfolder : folder ∈ foldersAround out)
    (hmade : disk'.createFolder folder = .ok next) : disk.Grown out next := by
  obtain ⟨parent, name, hnamed, hparent, hfree, rfl⟩ := exists_of_createFolder hmade
  have hplace : disk.placeOf folder = parent ++ [name] := by
    rw [(h.linkFree hlinks).eq_placeOf hnamed, h.placeOf_eq]
  refine ⟨h.isTree.set hparent (by rw [hfree]; nofun) _, h.current_eq, fun other => ?_⟩
  rw [KeepsAt, get?_set (concat_ne_nil _ _)]
  split
  next hother =>
    rw [hother]
    exact .inr ⟨h.get?_eq_none hfree, rfl, folder, hfolder, hplace⟩
  next => exact h.keepsAt other

end Grown

end Disk

namespace Session

open Disk

variable {disk : Disk} {s s' : Session}
  {out temporary : String} {bytes : List UInt8} {written : Option (List UInt8)}
  {result : Except Error Unit}

/-- While the folders around a file are made, only they are new. -/
theorem always_grown_createParent (htree : disk.IsTree) (hlinks : disk.LinkFree)
    (fate : Nat → FileCall → Fate) (out : String) :
    ((createParent out : StateM Session _).run (start disk fate)).2.Always (disk.Grown out) ∧
      ((createParent out : StateM Session _).run (start disk fate)).2.fate = fate :=
  keeps_createParent
    (fun _ hfolder _ _ hgrown hmade => hgrown.createFolder hlinks hfolder hmade) _
    ⟨always_start (.refl htree out), rfl⟩

/-! ## The temporary file -/

section Temporary

variable (hs : s.Always (disk.Grown out)) (hlinks : disk.LinkFree)
  (htemporary : temporaryPath? out = some temporary)

include hs hlinks htemporary

/-- While a temporary file is written, what stands at the place of the file stays. -/
theorem Writes.keepsAt (h : s.Writes temporary written s') :
    s'.Always (disk.KeepsAt out · (disk.placeOf out)) := by
  have hbefore : s.Always (disk.KeepsAt out · (disk.placeOf out)) :=
    fun d hd => (hs d hd).keepsAt _
  cases h with
  | nothing _ hstates _ =>
    rw [Always, hstates]
    exact hbefore
  | content h _ hstates _ =>
    have hgrown := hs.now
    intro d hd
    rcases hstates d hd with hd | ⟨part, rfl⟩
    · exact hbefore d hd
    · refine (hgrown.keepsAt _).congr ?_
      rw [get?_set (h.ne_nil hgrown.isTree), if_neg]
      rw [h.eq_placeOf (hgrown.linkFree hlinks), hgrown.placeOf_eq]
      exact (placeOf_temporary_ne htemporary).symm

/-- Where the temporary file is removed, nothing stands at its place that did not stand there. -/
theorem Writes.keepsAt_removeFile (h : s.Writes temporary written s')
    (hfree : disk.get? (disk.placeOf temporary) = none)
    (hremove : ∀ calls file, s.fate calls (.removeFile file) = .goes) :
    ((MonadFiles.removeFile temporary : StateM Session _).run s').2.Always
        (disk.KeepsAt out · (disk.placeOf out)) ∧
      disk.KeepsAt out ((MonadFiles.removeFile temporary : StateM Session _).run s').2.disk
        (disk.placeOf temporary) := by
  have hgrown := hs.now
  have hlinks' := hgrown.linkFree hlinks
  have hkeeps := h.keepsAt hs hlinks htemporary
  rw [removeFile_eq]
  cases h with
  | nothing hdisk hstates hfate =>
    obtain ⟨reason, hrun⟩ | ⟨next, hnext, -⟩ :=
      run_change_cases s' (.removeFile temporary) (·.removeFile temporary)
    · rw [hrun]
      exact ⟨hkeeps, hdisk ▸ hgrown.keepsAt _⟩
    -- there is no temporary file that could be removed
    · rw [hdisk] at hnext
      obtain ⟨place, hnamed, hsome, hnotFolder, -⟩ := exists_of_removeFile hnext
      obtain rfl := (hlinks'.eq_placeOf hnamed).trans (hgrown.placeOf_eq temporary)
      rcases hgrown.keepsAt (disk.placeOf temporary) with heq | ⟨-, hfolder, -⟩
      · rw [heq, hfree] at hsome
        cases hsome
      · exact absurd hfolder hnotFolder
  | @content _ place bytes h hdisk hstates hfate =>
    have hplace : place = disk.placeOf temporary := by
      rw [h.eq_placeOf hlinks', hgrown.placeOf_eq]
    have hplaceNil := h.ne_nil hgrown.isTree
    have hremoved := h.removeFile_temporary hgrown.isTree hlinks' htemporary bytes
    rw [← hdisk] at hremoved
    have hgoes : s'.fate s'.calls (.removeFile temporary) = .goes := by
      rw [hfate]
      exact hremove _ _
    rw [run_change_of_ok hgoes hremoved]
    refine ⟨hkeeps.advance (hkeeps.now.congr ?_), .inl ?_⟩
    · rw [get?_erase hplaceNil, if_neg]
      rw [hplace]
      exact (placeOf_temporary_ne htemporary).symm
    · change (s'.disk.erase place).get? _ = _
      rw [get?_erase hplaceNil, if_pos hplace.symm, hfree]

/-- The content gets into place as a whole or not at all, and the temporary file does not stay. -/
theorem Replaces.atomic (h : s.Replaces temporary out bytes result s')
    (hfree : disk.get? (disk.placeOf temporary) = none)
    (hremove : ∀ calls file, s.fate calls (.removeFile file) = .goes) :
    s'.Always (fun d => disk.KeepsAt out d (disk.placeOf out) ∨
        d.get? (disk.placeOf out) = some (.file bytes)) ∧
      (∀ e, result = .error e → disk.KeepsAt out s'.disk (disk.placeOf out) ∧
        disk.KeepsAt out s'.disk (disk.placeOf temporary)) ∧
      (result = .ok () → s'.disk.get? (disk.placeOf out) = some (.file bytes) ∧
        s'.disk.readBytes out = .ok bytes ∧
        s'.disk.get? (disk.placeOf temporary) = none) := by
  have hgrown := hs.now
  cases h with
  | fails h e =>
    obtain ⟨hkeeps, hgone⟩ := h.keepsAt_removeFile hs hlinks htemporary hfree hremove
    exact ⟨fun d hd => .inl (hkeeps d hd), fun _ _ => ⟨hkeeps.now, hgone⟩, nofun⟩
  | @moves s₁ next h hrename =>
    have hkeeps := h.keepsAt hs hlinks htemporary
    cases h with
    | content h hdisk _ _ =>
    rw [hdisk] at hrename
    obtain ⟨hget, hread⟩ :=
      h.get?_of_rename hgrown.isTree (hgrown.linkFree hlinks) htemporary hrename
    rw [hgrown.placeOf_eq, hgrown.placeOf_eq] at hget
    have hmoved : next.get? (disk.placeOf out) = some (.file bytes) := by
      rw [hget, if_pos rfl]
    -- up to the move nothing has been put into place
    have hbefore : s₁.Always (fun d => disk.KeepsAt out d (disk.placeOf out) ∨
        d.get? (disk.placeOf out) = some (.file bytes)) := fun d hd => .inl (hkeeps d hd)
    refine ⟨hbefore.advance (.inr hmoved), nofun, fun _ => ⟨hmoved, hread, ?_⟩⟩
    change next.get? _ = _
    rw [hget, if_neg (placeOf_temporary_ne htemporary), if_pos rfl]

end Temporary

end Session

/-! ## Writing a file -/

/-- A file is written atomically, as far as `keeps` says that a disk holds at a place what was there
before. -/
structure IsAtomic (keeps : Disk → Place → Prop) (disk : Disk) (out content : String)
    (result : Except Error String) (after : Session) : Prop where
  /-- In every state there is at the place of the file what was there before or the content. -/
  states : after.Always fun d => keeps d (disk.placeOf out) ∨
    d.get? (disk.placeOf out) = some (.file (Utf8.encode content))
  /-- After a failure there is what was there before, also at the place of the temporary file. -/
  error : ∀ e, result = .error e → keeps after.disk (disk.placeOf out) ∧
    ∀ temporary, temporaryPath? out = some temporary →
      keeps after.disk (disk.placeOf temporary)
  /-- After a success there is the content, it is read under the path, and there is no temporary
  file. -/
  ok : ∀ written, result = .ok written → written = out ∧
    after.disk.get? (disk.placeOf out) = some (.file (Utf8.encode content)) ∧
    after.disk.readBytes out = .ok (Utf8.encode content) ∧
    ∀ temporary, temporaryPath? out = some temporary →
      after.disk.get? (disk.placeOf temporary) = none

section

variable {disk : Disk} {out content : String} {result : Except Error String} {after : Session}

theorem IsAtomic.of_up_not_mem (h : IsAtomic (disk.KeepsAt out) disk out content result after)
    (hup : ".." ∉ Disk.segmentsOf out) :
    IsAtomic (fun d place => d.get? place = disk.get? place) disk out content result after where
  states d hd := (h.states d hd).imp_left fun hkeeps => hkeeps.get?_eq hup (.inl rfl)
  error e he := ⟨(h.error e he).1.get?_eq hup (.inl rfl), fun temporary htemporary =>
    ((h.error e he).2 temporary htemporary).get?_eq hup (.inr ⟨temporary, htemporary, rfl⟩)⟩
  ok := h.ok

/-- A file that has been written is read under its path. -/
theorem readBytes_of_writeAtomic (htree : disk.IsTree) (hlinks : disk.LinkFree)
    {home : Option String} {path : String} {after : Disk}
    (h : (writeAtomic home path content : StateM Disk _).run disk = (.ok out, after)) :
    expandTilde home path = .ok out ∧ after.readBytes out = .ok (Utf8.encode content) := by
  obtain ⟨hvalue, hdisk, -⟩ := Session.Mirrors.writeAtomic home path content
    (.start disk fun _ _ => .goes) fun _ _ => rfl
  -- the run is that of a session in which every call goes
  generalize hrun : (writeAtomic home path content : StateM Session _).run _ = ended at hvalue hdisk
  obtain ⟨result, s⟩ := ended
  obtain rfl : result = .ok out := hvalue.trans (congrArg Prod.fst h)
  obtain rfl : s.disk = after := hdisk.trans (congrArg Prod.snd h)
  obtain ⟨e, -, he, -⟩ |
      ⟨out', hout, ⟨e, he, -⟩ | ⟨temporary, result, htemporary, hreplaces, hok⟩⟩ :=
    Session.writeAtomic_cases hrun
  · cases he
  · cases he
  cases hreplaces with
  | fails => cases hok
  | moves hwrites hrename =>
    cases hok
    refine ⟨hout, ?_⟩
    have hgrown :=
      (Session.always_grown_createParent htree hlinks (fun _ _ => .goes) out').1.now
    cases hwrites with
    | content hplace hdisk _ _ =>
    rw [hdisk] at hrename
    exact (hplace.get?_of_rename hgrown.isTree (hgrown.linkFree hlinks) htemporary hrename).2

/-- On a disk without links, where nothing stands at the place of the temporary file, a file is
written atomically, whichever calls fail and wherever writing the content stops, as long as removing
the temporary file does not fail. Only where a path has steps up and so leads through the place of
the file or of the temporary file, a folder may be made there if nothing stood there. -/
theorem writeAtomic_atomic (htree : disk.IsTree) (hlinks : disk.LinkFree)
    (home : Option String) (path content : String) (fate : Nat → FileCall → Fate)
    (hfree : ∀ out temporary, expandTilde home path = .ok out →
      temporaryPath? out = some temporary → disk.get? (disk.placeOf temporary) = none)
    (hremove : ∀ calls file, fate calls (.removeFile file) = .goes) :
    ∃ result after,
      (writeAtomic home path content : StateM Session _).run (.start disk fate) =
        (result, after) ∧
      (∀ e, expandTilde home path = .error e → result = .error e ∧ after.Always (· = disk)) ∧
      ∀ out, expandTilde home path = .ok out →
        IsAtomic (disk.KeepsAt out) disk out content result after ∧
        (".." ∉ Disk.segmentsOf out →
          IsAtomic (fun d place => d.get? place = disk.get? place) disk out content result
            after) := by
  generalize hrun : (writeAtomic home path content : StateM Session _).run (.start disk fate) =
    ended
  obtain ⟨result, after⟩ := ended
  refine ⟨result, after, rfl, ?_⟩
  obtain ⟨e, hout, rfl, rfl⟩ | ⟨out, hout, hends⟩ := Session.writeAtomic_cases hrun
  · exact ⟨fun e' he => ⟨congrArg _ (Except.error.inj (hout.symm.trans he)),
      Session.always_start rfl⟩, fun out h => (nomatch hout.symm.trans h)⟩
  refine ⟨fun e h => (nomatch hout.symm.trans h), fun out' h => ?_⟩
  cases hout.symm.trans h
  suffices hatomic : IsAtomic (disk.KeepsAt out) disk out content result after from
    ⟨hatomic, hatomic.of_up_not_mem⟩
  obtain ⟨hgrown, hfate⟩ := Session.always_grown_createParent htree hlinks fate out
  rcases hends with ⟨e, rfl, rfl⟩ | ⟨temporary, result, htemporary, hreplaces, rfl⟩
  · exact ⟨fun d hd => .inl ((hgrown d hd).keepsAt _),
      fun _ _ => ⟨hgrown.now.keepsAt _, fun _ _ => hgrown.now.keepsAt _⟩, nofun⟩
  -- the folders are there, and the content is moved into place or not
  obtain ⟨hstates, herror, hok⟩ := hreplaces.atomic hgrown hlinks htemporary
    (hfree out temporary hout htemporary) (by rwa [hfate])
  refine ⟨hstates, fun e he => ?_, fun written hwritten => ?_⟩
  · cases result with
    | ok => cases he
    | error e =>
      obtain ⟨hplace, hgone⟩ := herror e rfl
      refine ⟨hplace, fun other hother => ?_⟩
      cases htemporary.symm.trans hother
      exact hgone
  · cases result with
    | error e => cases hwritten
    | ok =>
      cases hwritten
      obtain ⟨hplace, hread, hgone⟩ := hok rfl
      refine ⟨rfl, hplace, hread, fun other hother => ?_⟩
      cases htemporary.symm.trans hother
      exact hgone

end

section Sample

/-- A disk with a bundle of an earlier build. -/
def builtDisk : Disk where
  entries := [(["dist"], .folder), (["dist", "deploy.ts"], .file (Utf8.encode "old"))]
  current := []

/-- Fates under which writing stops after two bytes. -/
def fullAfterTwo : Nat → FileCall → Fate
  | _, .writeBytes _ _ => .stops 2 (.other "No space left on device")
  | _, _ => .goes

/-- An earlier bundle stays where there is no space for a new one. -/
theorem writeAtomic_full :
    builtDisk.IsTree ∧ builtDisk.LinkFree ∧
      ∃ e after, (writeAtomic none "dist/deploy.ts" "new" : StateM Session _).run
          (.start builtDisk fullAfterTwo) = (.error e, after) ∧
        after.disk.get? ["dist", "deploy.ts"] = some (.file (Utf8.encode "old")) ∧
        after.disk.get? ["dist", "deploy.ts.tmp"] = none := by
  have htree : builtDisk.IsTree := by decide
  have hlinks : builtDisk.LinkFree := Disk.linkFree_of_entries (by decide)
  have hout : expandTilde none "dist/deploy.ts" = .ok "dist/deploy.ts" := rfl
  have htemporary : temporaryPath? "dist/deploy.ts" = some "dist/deploy.ts.tmp" := by decide
  obtain ⟨result, after, hrun, -, hends⟩ :=
    writeAtomic_atomic htree hlinks none "dist/deploy.ts" "new" fullAfterTwo
      (fun out temporary h htemp => by
        cases hout.symm.trans h
        cases htemporary.symm.trans htemp
        decide)
      (fun _ _ => rfl)
  have hresult : result = .error (.io "dist/deploy.ts.tmp" (.other "No space left on device")) := by
    rw [← show (_ : Except Error String × Session).1 = result from congrArg Prod.fst hrun]
    decide
  obtain ⟨hplace, htemp⟩ := ((hends _ hout).2 (by decide)).error _ hresult
  exact ⟨htree, hlinks, _, after, hresult ▸ hrun, hplace, htemp _ htemporary⟩

/-- A path that leads through its own place: the folder that is made on the way stays there. -/
theorem writeAtomic_through_itself :
    ∃ (disk : Disk) (path content : String) (fate : Nat → FileCall → Fate) (e : Error)
      (after : Session), disk.IsTree ∧ disk.LinkFree ∧ expandTilde none path = .ok path ∧
      (∀ temporary, temporaryPath? path = some temporary →
        disk.get? (disk.placeOf temporary) = none) ∧
      (∀ calls file, fate calls (.removeFile file) = .goes) ∧
      (writeAtomic none path content : StateM Session _).run (.start disk fate) =
        (.error e, after) ∧
      disk.get? (disk.placeOf path) = none ∧
      after.disk.get? (disk.placeOf path) = some .folder := by
  have htemporary : temporaryPath? "x/../x" = some "x/../x.tmp" := by decide
  refine ⟨⟨[], []⟩, "x/../x", "c", fun _ _ => .goes, .io "x/../x" .isDirectory, _, by decide,
    Disk.linkFree_of_entries (by decide), rfl, fun temporary htemp => ?_, fun _ _ => rfl,
    Prod.ext (by decide) rfl, by decide, by decide⟩
  cases htemporary.symm.trans htemp
  decide

end Sample

end EdgeBundle
