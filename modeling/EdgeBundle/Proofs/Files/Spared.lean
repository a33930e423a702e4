import EdgeBundle.Proofs.Files.Session
import EdgeBundle.Proofs.Files.Temporary

/-!
# Files that writing leaves alone

Writing a file changes no other file, whatever fails. The only exceptions have to do with the name
of the temporary file: a file that stands there is lost, and where a link stands there the content
goes through the link.

## Main definitions

* `Disk.IsSpared`: a place is neither that of a file nor has to do with its temporary file.

## Main statements

* `writeAtomic_spares`: a file at such a place is there in every state.
-/

namespace EdgeBundle

namespace Disk

/-- A place is not the one that a path names, and it is neither the one that the path of the
temporary file names nor the one that it leads to. -/
structure IsSpared (disk : Disk) (out : String) (place : Place) : Prop where
  /-- The file that is written is elsewhere. -/
  file : disk.namedPlace? out ≠ some place
  /-- The temporary file is elsewhere. -/
  temporary : ∀ temporary, temporaryPath? out = some temporary →
    disk.namedPlace? temporary ≠ some place ∧ disk.find temporary ≠ .ok place

end Disk

namespace Session

open Disk

variable {s s' : Session} {place : Place} {bytes content : List UInt8} {path out temporary : String}
  {written : Option (List UInt8)} {result : Except Error Unit}

/-- What a path names after a temporary file is written it has named before. -/
theorem Writes.namedPlace?_eq_some (h : s.Writes path written s') (htree : s.disk.IsTree)
    {file : String} {other : Place} (hother : s'.disk.namedPlace? file = some other) :
    s.disk.namedPlace? file = some other := by
  cases h with
  | nothing hdisk _ _ => rwa [← hdisk]
  | content h hdisk _ _ =>
    rw [hdisk] at hother
    exact (h.keepsWays_symm htree _).namedPlace?_eq_some hother

section Temporary

variable (htree : s.disk.IsTree) (hfile : s.Always (·.get? place = some (.file bytes)))
  (hspared : s.disk.IsSpared out place) (htemporary : temporaryPath? out = some temporary)

include htree hfile hspared htemporary

/-- A temporary file is written somewhere else. -/
theorem ne_of_receives {other : Place} (h : s.disk.Receives temporary other) : place ≠ other := by
  rintro rfl
  cases h with
  | file h _ =>
    refine (hspared.temporary temporary htemporary).2 ?_
    rw [find, h]
    rfl
  | free h =>
    have hfree := (htree.locate_isOn h).2
    rw [hfile.now] at hfree
    cases hfree

/-- While a temporary file is written, the file is there. -/
theorem Writes.always_file (h : s.Writes temporary written s') :
    s'.Always (·.get? place = some (.file bytes)) := by
  cases h with
  | nothing _ hstates _ =>
    rw [Always, hstates]
    exact hfile
  | content h _ hstates _ =>
    intro d hd
    rcases hstates d hd with hd | ⟨part, rfl⟩
    · exact hfile d hd
    · rw [get?_set (h.ne_nil htree),
        if_neg (ne_of_receives htree hfile hspared htemporary h), hfile.now]

/-- The file is there also after the temporary file is removed or moved. -/
theorem Replaces.always_file (h : s.Replaces temporary out content result s') :
    s'.Always (·.get? place = some (.file bytes)) := by
  cases h with
  -- the temporary file is removed, which may fail as well
  | @fails s₁ _ h e =>
    have hkept := h.always_file htree hfile hspared htemporary
    rw [removeFile_eq]
    obtain ⟨reason, hrun⟩ | ⟨next, hnext, hrun⟩ :=
      run_change_cases s₁ (.removeFile temporary) (·.removeFile temporary)
    · rw [hrun]
      exact hkept
    · rw [hrun]
      obtain ⟨other, hother, -, -, rfl⟩ := exists_of_removeFile hnext
      have hne : place ≠ other := by
        rintro rfl
        exact (hspared.temporary temporary htemporary).1
          (h.namedPlace?_eq_some htree hother)
      refine hkept.advance ?_
      rw [get?_erase (ne_nil_of_namedPlace? hother), if_neg hne, hkept.now]
  -- the move touches two places, and the file stands at neither
  | @moves s₁ next h hrename =>
    have hkept := h.always_file htree hfile hspared htemporary
    have hnamed {file : String} {other : Place} (hother : s₁.disk.namedPlace? file = some other) :=
      h.namedPlace?_eq_some htree hother
    refine hkept.advance ?_
    cases h with
    | content h hdisk _ _ =>
    obtain ⟨old, entry, folder, name, hold, hentry, hfolder, hparent, hname, -, -, hmoved⟩ :=
      exists_of_rename hrename (hdisk ▸ h.source_ne_folder htree htemporary content)
    have hnew := namedPlace?_eq_some_iff.mpr ⟨_, _, _, hparent, hname, rfl⟩
    split_ifs at hmoved with hsame
    · rw [hmoved, hkept.now]
    have hne_old : place ≠ old := by
      rintro rfl
      exact (hspared.temporary temporary htemporary).1 (hnamed hold)
    have hne_new : place ≠ folder ++ [name] := by
      rintro rfl
      exact hspared.file (hnamed hnew)
    have htree' : s₁.disk.IsTree := hdisk ▸ h.isTree htree content
    rw [hmoved, get?_moveEntry htree' hentry hfolder hsame (concat_ne_nil _ _), if_neg hne_new,
      if_neg hne_old, hkept.now]

end Temporary

/-- The folders around a file are made where nothing stands. -/
theorem always_file_createParent {disk : Disk} (htree : disk.IsTree)
    (hfile : disk.get? place = some (.file bytes)) (fate : Nat → FileCall → Fate) (out : String) :
    ((createParent out : StateM Session _).run (start disk fate)).2.Always
      fun d => d.IsTree ∧ d.get? place = some (.file bytes) := by
  refine (keeps_createParent (fun folder _ d next hd hmade => ?_) _
    ⟨always_start ⟨htree, hfile⟩, rfl⟩).1
  obtain ⟨parent, name, -, hparent, hfree, rfl⟩ := exists_of_createFolder hmade
  refine ⟨hd.1.set hparent (by rw [hfree]; nofun) _, ?_⟩
  rw [get?_set (concat_ne_nil _ _), if_neg, hd.2]
  rintro rfl
  rw [hd.2] at hfree
  cases hfree

end Session

/-- Whichever calls fail and wherever writing the content stops, a file is there in every state
while another file is written. It must not stand at the place that the path of the written file
names or at the place that the path of the temporary file names or leads to, once the folders around
the file are made. -/
theorem writeAtomic_spares {disk : Disk} {place : Place} {bytes : List UInt8} (htree : disk.IsTree)
    (hfile : disk.get? place = some (.file bytes)) (home : Option String) (path content : String)
    (fate : Nat → FileCall → Fate)
    (hspared : ∀ out, expandTilde home path = .ok out →
      ((createParent out : StateM Session _).run (.start disk fate)).2.disk.IsSpared out place) :
    ((writeAtomic home path content : StateM Session _).run (.start disk fate)).2.Always
      (·.get? place = some (.file bytes)) := by
  generalize hrun : (writeAtomic home path content : StateM Session _).run (.start disk fate) =
    ended
  obtain ⟨result, after⟩ := ended
  obtain ⟨e, hout, rfl, rfl⟩ | ⟨out, hout, hends⟩ := Session.writeAtomic_cases hrun
  · exact Session.always_start hfile
  have hmade := Session.always_file_createParent htree hfile fate out
  have hkept : Session.Always (·.get? place = some (.file bytes)) _ := fun d hd => (hmade d hd).2
  rcases hends with ⟨e, rfl, rfl⟩ | ⟨temporary, result, htemporary, hreplaces, rfl⟩
  · exact hkept
  · exact hreplaces.always_file hmade.now.1 hkept (hspared out hout) htemporary

section Sample

/-- A disk with a link to a file where a bundle goes. -/
def linkedDisk : Disk where
  entries := [(["mine.txt"], .file (Utf8.encode "mine")), (["out.ts"], .link "mine.txt")]
  current := []

/-- A file that a link at the path of the bundle leads to is not written to: the bundle takes the
place of the link. -/
theorem writeAtomic_spares_linked :
    linkedDisk.IsTree ∧ linkedDisk.find "out.ts" = .ok ["mine.txt"] ∧
      ((createParent "out.ts" : StateM Session _).run
        (.start linkedDisk fun _ _ => .goes)).2.disk.IsSpared "out.ts" ["mine.txt"] ∧
      ((writeAtomic none "out.ts" "new" : StateM Session _).run
        (.start linkedDisk fun _ _ => .goes)).2.Always
          (·.get? ["mine.txt"] = some (.file (Utf8.encode "mine"))) := by
  have htemporary : temporaryPath? "out.ts" = some "out.ts.tmp" := by decide
  have hspared : ((createParent "out.ts" : StateM Session _).run
      (.start linkedDisk fun _ _ => .goes)).2.disk.IsSpared "out.ts" ["mine.txt"] := by
    refine ⟨by decide, fun temporary h => ?_⟩
    cases htemporary.symm.trans h
    decide
  refine ⟨by decide, by decide, hspared,
    writeAtomic_spares (by decide) (by decide) none "out.ts" "new" _ fun out hout => ?_⟩
  cases (show Except.ok "out.ts" = _ from hout)
  exact hspared

/-- What stands at the place of the temporary file is lost, and what a link there leads to is
written to, although the path of the bundle neither names nor leads to these places. -/
theorem writeAtomic_not_spared :
    (∃ (disk : Disk) (place : Place) (bytes : List UInt8) (path content : String),
      disk.IsTree ∧ disk.get? place = some (.file bytes) ∧
      expandTilde none path = .ok path ∧ disk.namedPlace? path ≠ some place ∧
      disk.find path ≠ .ok place ∧
      ((writeAtomic none path content : StateM Session _).run
        (.start disk fun _ _ => .goes)).2.disk.get? place = none) ∧
    ∃ (disk : Disk) (place : Place) (bytes other : List UInt8) (path content : String),
      disk.IsTree ∧ disk.get? place = some (.file bytes) ∧ bytes ≠ other ∧
      expandTilde none path = .ok path ∧ disk.namedPlace? path ≠ some place ∧
      disk.find path ≠ .ok place ∧
      ((writeAtomic none path content : StateM Session _).run
        (.start disk fun _ _ => .goes)).2.disk.get? place = some (.file other) := by
  constructor
  · refine ⟨⟨[(["out.ts.tmp"], .file (Utf8.encode "mine"))], []⟩, ["out.ts.tmp"],
      Utf8.encode "mine", "out.ts", "x", ?_⟩
    decide
  · refine ⟨⟨[(["mine.txt"], .file (Utf8.encode "mine")), (["out.ts.tmp"], .link "mine.txt")], []⟩,
      ["mine.txt"], Utf8.encode "mine", Utf8.encode "x", "out.ts", "x", ?_⟩
    decide

end Sample

end EdgeBundle
