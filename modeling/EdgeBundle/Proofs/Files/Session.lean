import EdgeBundle.Files.Session
import EdgeBundle.Proofs.Files.DiskChange
import EdgeBundle.Proofs.Files.Keeps

/-!
# Writing in a session

What happens to a disk while a file is written: folders are made, a temporary file is filled, and
then it is moved into place or removed. A session in which every call goes ends with the disk that
the operations leave.

## Main definitions

* `Session.Always`: a property of all disks of a session.
* `Session.Writes`: what a session becomes when a content is to be written.
* `Session.Replaces`: what it becomes when a content is to be moved into place.

## Main statements

* `Session.keeps_createParent`: what stays true while folders are made.
* `Session.writeAtomic_cases`: the ways in which writing a file ends.
* `Session.Mirrors.writeAtomic`: writing a file where every call goes.
-/

namespace EdgeBundle

namespace Session

variable {α β ε : Type} {s s' : Session} {disk next : Disk} {call : FileCall}
  {fate : Nat → FileCall → Fate} {home : Option String} {path temporary content : String}
  {bytes : List UInt8} {operation : Disk → Except OsError Disk} {Q : Disk → Prop}

/-! ## Calls -/

theorem states_advance (s : Session) (disks : List Disk) :
    (s.advance disks).states = disks ++ s.states := by
  cases disks <;> rfl

theorem fate_advance (s : Session) (disks : List Disk) : (s.advance disks).fate = s.fate := by
  cases disks <;> rfl

theorem rename_eq (source target : String) : (MonadFiles.rename source target : StateM Session _) =
    change (.rename source target) (·.rename source target) := rfl

theorem removeFile_eq (path : String) : (MonadFiles.removeFile path : StateM Session _) =
    change (.removeFile path) (·.removeFile path) := rfl

theorem run_ask (s : Session) (call : FileCall) (answer : Disk → Except OsError α) :
    (ask call answer).run s = match (s.fate s.calls call).failure? with
      | some reason => (.error reason, s.advance [])
      | none => (answer s.disk, s.advance []) := rfl

theorem run_change (s : Session) (call : FileCall) (operation : Disk → Except OsError Disk) :
    (change call operation).run s = match (s.fate s.calls call).failure? with
      | some reason => (.error reason, s.advance [])
      | none => match operation s.disk with
        | .ok next => (.ok (), s.advance [next])
        | .error reason => (.error reason, s.advance []) := rfl

/-- A call that changes the disk does so in one step, or it fails and changes nothing. -/
theorem run_change_cases (s : Session) (call : FileCall)
    (operation : Disk → Except OsError Disk) :
    (∃ reason, (change call operation).run s = (.error reason, s.advance [])) ∨
      ∃ next, operation s.disk = .ok next ∧
        (change call operation).run s = (.ok (), s.advance [next]) := by
  rw [run_change]
  split
  · exact .inl ⟨_, rfl⟩
  · split
    next next hnext => exact .inr ⟨next, hnext, rfl⟩
    next => exact .inl ⟨_, rfl⟩

theorem run_change_of_ok (hgoes : s.fate s.calls call = .goes)
    (h : operation s.disk = .ok next) :
    (change call operation).run s = (.ok (), s.advance [next]) := by
  simp only [run_change, hgoes, Fate.failure?, h]

/-- A property of all disks of a session. -/
def Always (Q : Disk → Prop) (s : Session) : Prop :=
  ∀ disk ∈ s.states, Q disk

theorem always_start (h : Q disk) : (start disk fate).Always Q :=
  List.forall_mem_singleton.mpr h

theorem Always.advance (hs : s.Always Q) (h : Q next) : (s.advance [next]).Always Q :=
  List.forall_mem_cons.mpr ⟨h, hs⟩

theorem Always.now (h : s.Always Q) : Q s.disk :=
  h _ List.mem_cons_self

theorem keeps_ask (call : FileCall) (answer : Disk → Except OsError α) :
    Keeps (fun s : Session => s.Always Q ∧ s.fate = fate) (ask call answer) := by
  intro s hs
  rw [run_ask]
  split <;> exact hs

theorem keeps_change (h : ∀ disk next, Q disk → operation disk = .ok next → Q next) :
    Keeps (fun s : Session => s.Always Q ∧ s.fate = fate) (change call operation) := by
  rintro s ⟨hs, hfate⟩
  obtain ⟨reason, hrun⟩ | ⟨next, hnext, hrun⟩ := run_change_cases s call operation
  · rw [hrun]
    exact ⟨hs, hfate⟩
  · rw [hrun]
    exact ⟨hs.advance (h _ _ hs.now hnext), hfate⟩

/-- What every folder around a file leaves true when it is made, making all of them does. -/
theorem keeps_createParent
    (h : ∀ folder ∈ foldersAround path, ∀ disk next, Q disk →
      disk.createFolder folder = .ok next → Q next) :
    Keeps (fun s : Session => s.Always Q ∧ s.fate = fate) (createParent path) :=
  .createParent (fun folder hfolder => keeps_change (h folder hfolder)) fun _ => keeps_ask _ _

/-! ## Writing -/

/-- What a session becomes when a content is to be written to a path. -/
inductive Writes (s : Session) (path : String) : Option (List UInt8) → Session → Prop where
  /-- The disk stays as it is. -/
  | nothing {s' : Session} (hdisk : s'.disk = s.disk) (hstates : s'.states = s.states)
      (hfate : s'.fate = s.fate) : Writes s path none s'
  /-- A content is where the path leads, and other contents may have been there before. -/
  | content {s' : Session} {place : Place} {bytes : List UInt8} (h : s.disk.Receives path place)
      (hdisk : s'.disk = s.disk.set place (.file bytes))
      (hstates : ∀ disk ∈ s'.states, disk ∈ s.states ∨
        ∃ part, disk = s.disk.set place (.file part))
      (hfate : s'.fate = s.fate) : Writes s path (some bytes) s'

/-- While a content is written, a start of it is where the path leads, and the whole of it at the
end. -/
theorem exists_writing_eq {place : Place} (h : disk.Receives path place) (bytes : List UInt8) :
    ∃ before, disk.writing path bytes =
      (bytes :: before).map fun part => disk.set place (.file part) := by
  have hwriting : disk.writing path bytes =
      bytes.inits.reverse.map fun part => disk.set place (.file part) := by
    rw [Disk.writing, ← List.filterMap_eq_map]
    refine List.filterMap_congr fun part _ => ?_
    rw [h.writeBytes]
    rfl
  have hwhole : ∃ before, bytes.inits = before ++ [bytes] := by
    induction bytes using List.reverseRecOn with
    | nil => exact ⟨[], rfl⟩
    | append_singleton bytes byte => exact ⟨bytes.inits, by rw [List.inits_append]; rfl⟩
  obtain ⟨before, hbefore⟩ := hwhole
  rw [hbefore, List.reverse_concat] at hwriting
  exact ⟨_, hwriting⟩

theorem writes_advance {place : Place} (h : s.disk.Receives path place) (bytes : List UInt8) :
    s.Writes path (some bytes) (s.advance (s.disk.writing path bytes)) := by
  obtain ⟨before, hwriting⟩ := exists_writing_eq h bytes
  refine .content h (by rw [hwriting]; rfl) (fun disk hdisk => ?_) (fate_advance _ _)
  rw [states_advance, hwriting, List.mem_append, List.mem_map] at hdisk
  rcases hdisk with ⟨part, -, rfl⟩ | hdisk
  · exact .inr ⟨_, rfl⟩
  · exact .inl hdisk

theorem run_writeBytes (s : Session) (path : String) (bytes : List UInt8) :
    (MonadFiles.writeBytes path bytes : StateM Session _).run s =
      match s.disk.writeBytes path bytes, s.fate s.calls (.writeBytes path bytes) with
      | .error reason, _ => (.error reason, s.advance [])
      | .ok _, .fails reason => (.error reason, s.advance [])
      | .ok _, .stops count reason =>
        (.error reason, s.advance (s.disk.writing path (bytes.take count)))
      | .ok _, .goes => (.ok (), s.advance (s.disk.writing path bytes)) := rfl

/-- A content is written as a whole, or writing fails after a part of it. -/
theorem run_writeBytes_cases (s : Session) (path : String) (bytes : List UInt8) :
    (∃ reason written s', (MonadFiles.writeBytes path bytes : StateM Session _).run s =
        (.error reason, s') ∧ s.Writes path written s') ∨
      ∃ s', (MonadFiles.writeBytes path bytes : StateM Session _).run s = (.ok (), s') ∧
        s.Writes path (some bytes) s' := by
  rw [run_writeBytes]
  split
  next => exact .inl ⟨_, _, _, rfl, .nothing rfl rfl rfl⟩
  next => exact .inl ⟨_, _, _, rfl, .nothing rfl rfl rfl⟩
  next hwrite _ =>
    obtain ⟨place, hplace⟩ := Disk.exists_receives hwrite
    exact .inl ⟨_, _, _, rfl, writes_advance hplace _⟩
  next hwrite _ =>
    obtain ⟨place, hplace⟩ := Disk.exists_receives hwrite
    exact .inr ⟨_, rfl, writes_advance hplace bytes⟩

/-! ## Moving a content into place -/

/-- What a session becomes when a content is to be moved into place through a temporary file. -/
inductive Replaces (s : Session) (temporary path : String) (bytes : List UInt8) :
    Except Error Unit → Session → Prop where
  /-- The content does not get there, and what there is of the temporary file is to be removed. -/
  | fails {s₁ : Session} {written : Option (List UInt8)} (h : s.Writes temporary written s₁)
      (e : Error) : Replaces s temporary path bytes (.error e)
        ((MonadFiles.removeFile temporary : StateM Session _).run s₁).2
  /-- The content gets there. -/
  | moves {s₁ : Session} {next : Disk} (h : s.Writes temporary (some bytes) s₁)
      (hrename : s₁.disk.rename temporary path = .ok next) :
      Replaces s temporary path bytes (.ok ()) (s₁.advance [next])

theorem Writes.advance_nil {written : Option (List UInt8)} (h : s.Writes path written s') :
    s.Writes path written (s'.advance []) := by
  cases h with
  | nothing hdisk hstates hfate => exact .nothing hdisk hstates hfate
  | content h hdisk hstates hfate => exact .content h hdisk hstates hfate

theorem replaces_of_run {r : Except Error Unit}
    (h : (replaceFile temporary path content : StateM Session _).run s = (r, s')) :
    s.Replaces temporary path (Utf8.encode content) r s' := by
  rw [replaceFile, run_bind] at h
  obtain ⟨reason, written, s₁, hrun, hwrites⟩ | ⟨s₁, hrun, hwrites⟩ :=
    run_writeBytes_cases s temporary (Utf8.encode content)
  · rw [hrun] at h
    cases h
    exact .fails hwrites _
  rw [hrun] at h
  simp only [run_bind, rename_eq] at h
  obtain ⟨reason, hrename⟩ | ⟨next, hnext, hrename⟩ :=
    run_change_cases s₁ (.rename temporary path) (·.rename temporary path)
  · rw [hrename] at h
    cases h
    exact .fails hwrites.advance_nil _
  · rw [hrename] at h
    cases h
    exact .moves hwrites hnext

/-- Writing a file ends where the path names no place, where the folders around it are not made, or
where the content is moved into place or is not. -/
theorem writeAtomic_cases {r : Except Error String}
    (h : (writeAtomic home path content : StateM Session _).run s = (r, s')) :
    (∃ e, expandTilde home path = .error e ∧ r = .error e ∧ s' = s) ∨
      ∃ out, expandTilde home path = .ok out ∧
        ((∃ e, r = .error e ∧ s' = ((createParent out : StateM Session _).run s).2) ∨
          ∃ temporary result, temporaryPath? out = some temporary ∧
            ((createParent out : StateM Session _).run s).2.Replaces temporary out
              (Utf8.encode content) result s' ∧ r = result.map fun _ => out) := by
  rw [writeAtomic] at h
  split at h
  next e he =>
    cases h
    exact .inl ⟨e, he, rfl, rfl⟩
  next out hout =>
    refine .inr ⟨out, hout, ?_⟩
    rw [run_bind] at h
    split at h
    -- the folders around the file are not made
    next e he =>
      cases h
      exact .inl ⟨e, rfl, rfl⟩
    next =>
    split at h
    -- the path has no name that a temporary file could get
    next =>
      cases h
      exact .inl ⟨_, rfl, rfl⟩
    next temporary htemporary =>
      rw [run_bind] at h
      generalize hrun : (replaceFile temporary out content : StateM Session _).run _ = ended at h
      obtain ⟨result, s₁⟩ := ended
      refine .inr ⟨temporary, result, htemporary, ?_⟩
      cases result with
      | error e =>
        cases h
        exact ⟨replaces_of_run hrun, rfl⟩
      | ok =>
        cases h
        exact ⟨replaces_of_run hrun, rfl⟩

/-! ## Sessions in which every call goes -/

/-- Where every call goes, a computation in a session gives what it gives on the disk, and it leaves
the same disk. -/
def Mirrors (x : StateM Session α) (y : StateM Disk α) : Prop :=
  ∀ s, (∀ n call, s.fate n call = .goes) →
    (x.run s).1 = (y.run s.disk).1 ∧ (x.run s).2.disk = (y.run s.disk).2 ∧
      (x.run s).2.fate = s.fate

namespace Mirrors

protected theorem pure (a : α) : Mirrors (pure a) (pure a) :=
  fun _ _ => ⟨rfl, rfl, rfl⟩

protected theorem bind {x : StateM Session α} {y : StateM Disk α} {f : α → StateM Session β}
    {g : α → StateM Disk β} (hx : Mirrors x y) (hf : ∀ a, Mirrors (f a) (g a)) :
    Mirrors (x >>= f) (y >>= g) := by
  intro s hs
  obtain ⟨hvalue, hdisk, hfate⟩ := hx s hs
  obtain ⟨hvalue', hdisk', hfate'⟩ := hf (x.run s).1 (x.run s).2 (by rwa [hfate])
  rw [run_bind, run_bind, ← hvalue, ← hdisk]
  exact ⟨hvalue', hdisk', hfate'.trans hfate⟩

theorem ask (call : FileCall) (answer : Disk → Except OsError α) :
    Mirrors (Session.ask call answer) (return answer (← get)) := by
  intro s hs
  rw [run_ask, hs]
  exact ⟨rfl, rfl, rfl⟩

theorem change (call : FileCall) (operation : Disk → Except OsError Disk) :
    Mirrors (Session.change call operation) (Disk.change operation) := by
  intro s hs
  have hrun : (Disk.change operation).run s.disk = match operation s.disk with
    | .ok next => (.ok (), next)
    | .error e => (.error e, s.disk) := rfl
  rw [run_change, hs, hrun]
  simp only [Fate.failure?]
  split <;> exact ⟨rfl, rfl, rfl⟩

theorem writeBytes (path : String) (bytes : List UInt8) :
    Mirrors (MonadFiles.writeBytes path bytes) (MonadFiles.writeBytes path bytes) := by
  intro s hs
  have hmirror : (MonadFiles.writeBytes path bytes : StateM Disk _).run s.disk =
      match s.disk.writeBytes path bytes with
      | .ok next => (.ok (), next)
      | .error e => (.error e, s.disk) := rfl
  rw [run_writeBytes, hmirror, hs]
  cases hwrite : s.disk.writeBytes path bytes with
  | error e => exact ⟨rfl, rfl, rfl⟩
  | ok next =>
    obtain ⟨place, hplace⟩ := Disk.exists_receives hwrite
    obtain ⟨before, hwriting⟩ := exists_writing_eq hplace bytes
    rw [hplace.writeBytes] at hwrite
    cases hwrite
    rw [hwriting]
    exact ⟨rfl, rfl, rfl⟩

theorem createFolders (paths : List String) :
    Mirrors (EdgeBundle.createFolders paths) (EdgeBundle.createFolders paths) := by
  have hisFolder (path : String) :
      Mirrors (MonadFiles.isFolder path) (MonadFiles.isFolder path) := by
    refine (ask (.kindOf path) _).bind fun kind => ?_
    split <;> exact .pure _
  have hsettle (path : String) (result : Except OsError Unit) :
      Mirrors (createFolders.settle path result) (createFolders.settle path result) := by
    cases result with
    | ok => exact .pure _
    | error e =>
      refine (hisFolder path).bind fun folder => ?_
      split <;> exact .pure _
  have hfolder (path : String) :
      Mirrors (MonadFiles.createFolder path) (MonadFiles.createFolder path) :=
    change _ _
  -- from the folder itself up: the folders above it are made if it cannot be made
  induction paths with
  | nil => exact .pure _
  | cons path above ih =>
    refine (hfolder path).bind fun made => ?_
    split
    · exact .pure _
    · refine ih.bind fun result => ?_
      split
      · exact .pure _
      · exact (hfolder path).bind fun _ => hsettle _ _
    · exact hsettle _ _

theorem replaceFile (temporary path content : String) :
    Mirrors (EdgeBundle.replaceFile temporary path content)
      (EdgeBundle.replaceFile temporary path content) := by
  have hremove : Mirrors (MonadFiles.removeFile temporary) (MonadFiles.removeFile temporary) :=
    change _ _
  have hrename : Mirrors (MonadFiles.rename temporary path) (MonadFiles.rename temporary path) :=
    change _ _
  refine (writeBytes _ _).bind fun written => ?_
  split
  · exact hremove.bind fun _ => .pure _
  · refine hrename.bind fun renamed => ?_
    split
    · exact hremove.bind fun _ => .pure _
    · exact .pure _

/-- A file is written in the same way. -/
theorem writeAtomic (home : Option String) (path content : String) :
    Mirrors (EdgeBundle.writeAtomic home path content)
      (EdgeBundle.writeAtomic home path content) := by
  rw [EdgeBundle.writeAtomic, EdgeBundle.writeAtomic]
  split
  · exact .pure _
  next out _ =>
  have hparent : Mirrors (createParent out) (createParent out) := by
    rw [createParent_eq, createParent_eq]
    exact (createFolders _).bind fun _ => .pure _
  refine hparent.bind fun made => ?_
  split
  · exact .pure _
  split
  · exact .pure _
  refine (replaceFile _ _ _).bind fun replaced => ?_
  split <;> exact .pure _

end Mirrors

end Session

end EdgeBundle
