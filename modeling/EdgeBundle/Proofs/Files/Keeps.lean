import EdgeBundle.Files.Write
import EdgeBundle.Proofs.Files.Walk

/-!
# Properties of states that are kept

What every call keeps, a computation keeps. Collecting asks the file system only, so it keeps
whatever asking keeps. Before a file is written its folders are made and nothing else is done.

## Main definitions

* `Keeps`: a computation keeps a property of states.
* `KeepsAsking`: every call that asks something keeps it.
* `foldersAround`: the folders around a file.

## Main statements

* `KeepsAsking.collectInputs`: collecting only asks.
* `Keeps.createParent`: what is kept while the folders around a file are made.
-/

namespace EdgeBundle

variable {σ α β γ ε ε' : Type} {P : σ → Prop} {s : σ}

theorem run_bind (x : StateM σ α) (f : α → StateM σ β) (s : σ) :
    (x >>= f).run s = (f (x.run s).1).run (x.run s).2 := rfl

/-- A computation keeps a property of states. -/
def Keeps (P : σ → Prop) (x : StateM σ α) : Prop :=
  ∀ s, P s → P (x.run s).2

/-- A computation that keeps the state gives a value in it. -/
theorem Keeps.exists_reads {x : StateM σ α} (h : Keeps (· = s) x) : ∃ a, Reads s x a :=
  ⟨(x.run s).1, Prod.ext rfl (h s rfl)⟩

namespace Keeps

protected theorem pure (a : α) : Keeps P (pure a) :=
  fun _ hs => hs

protected theorem bind {x : StateM σ α} {f : α → StateM σ β} (hx : Keeps P x)
    (hf : ∀ a, Keeps P (f a)) : Keeps P (x >>= f) :=
  fun s hs => hf _ _ (hx s hs)

protected theorem mapM {f : α → StateM σ β} {xs : List α} (h : ∀ a ∈ xs, Keeps P (f a)) :
    Keeps P (xs.mapM f) := by
  induction xs with
  | nil => exact .pure _
  | cons a xs ih =>
    rw [List.forall_mem_cons] at h
    rw [List.mapM_cons]
    exact h.1.bind fun _ => (ih h.2).bind fun _ => .pure _

theorem ofLogged (x : Logged ε α) : Keeps P (LoggedT.ofLogged x : LoggedT ε (StateM σ) α).run :=
  .pure x

theorem ofResult {x : StateM σ (Except ε α)} (hx : Keeps P x) :
    Keeps P (LoggedT.ofResult x).run :=
  Keeps.bind hx fun _ => .pure _

theorem bind_logged {x : LoggedT ε (StateM σ) α} {f : α → LoggedT ε (StateM σ) β}
    (hx : Keeps P x.run) (hf : ∀ a, Keeps P (f a).run) : Keeps P (x >>= f).run := by
  change Keeps P (LoggedT.bind x f)
  rw [LoggedT.bind]
  refine hx.bind fun first => ?_
  split
  · exact (hf _).bind fun _ => .pure _
  · exact .pure _

theorem mapM_logged {f : α → LoggedT ε (StateM σ) β} {xs : List α}
    (h : ∀ a ∈ xs, Keeps P (f a).run) : Keeps P (xs.mapM f).run := by
  unfold List.mapM
  -- on the items, for all that the loop has gathered before
  generalize ([] : List β) = gathered
  induction xs generalizing gathered with
  | nil => exact .pure _
  | cons a xs ih =>
    rw [List.forall_mem_cons] at h
    exact bind_logged h.1 fun b => ih h.2 (b :: gathered)

end Keeps

variable [MonadFiles (StateM σ)]

/-! ## Collecting -/

/-- Every call that asks the file system something keeps a property of states. -/
structure KeepsAsking (P : σ → Prop) : Prop where
  /-- Reading keeps it. -/
  readBytes : ∀ path, Keeps P (MonadFiles.readBytes path)
  /-- Listing keeps it. -/
  listFolder : ∀ path, Keeps P (MonadFiles.listFolder path)
  /-- Asking for a kind keeps it. -/
  kindOf : ∀ path, Keeps P (MonadFiles.kindOf path)
  /-- Asking for a path without links keeps it. -/
  realPath : ∀ path, Keeps P (MonadFiles.realPath path)
  /-- Asking how deep folders lie keeps it. -/
  depthLimit : Keeps P MonadFiles.depthLimit

theorem Keeps.isFolder (hkind : ∀ path, Keeps P (MonadFiles.kindOf path)) (path : String) :
    Keeps P (MonadFiles.isFolder path) := by
  refine (hkind path).bind fun kind => ?_
  split <;> exact .pure _

namespace KeepsAsking

open Collect

variable (h : KeepsAsking P)

include h

theorem walkEntry {enter : String → StateM σ (List Item)} (henter : ∀ path, Keeps P (enter path))
    (way : Way) (folder : String) (entry : FolderEntry) :
    Keeps P (Collect.walkEntry way enter folder entry) := by
  rw [Collect.walkEntry]
  split
  · exact .pure _
  · exact henter _
  · exact .pure _
  · refine (h.kindOf _).bind fun kind => ?_
    split
    · exact .pure _
    · exact .pure _
    · have hback : Keeps P (leadsBack way (childPath folder entry.name)) := by
        refine (h.realPath _).bind fun real => ?_
        split <;> exact .pure _
      refine hback.bind fun back => ?_
      split
      · exact .pure _
      · exact .pure _
      · exact henter _
    · exact .pure _

theorem walk (depth : Nat) (way : Way) (folder : String) :
    Keeps P (Collect.walk depth way folder : StateM σ (List Item)) := by
  induction depth generalizing way folder with
  | zero => exact .pure _
  | succ depth ih =>
    rw [Collect.walk]
    refine (h.listFolder _).bind fun entries => ?_
    split
    · exact .pure _
    refine (h.realPath _).bind fun real => ?_
    split
    · exact .pure _
    exact (Keeps.mapM fun entry _ => h.walkEntry (ih _) _ _ entry).bind fun _ => .pure _

theorem readItem (root : String) (origin : Origin) (item : Item) :
    Keeps P (Collect.readItem root origin item : LoggedT FileError (StateM σ) Record).run := by
  cases item with
  | error e => exact .ofLogged _
  | ok file =>
    have hread : Keeps P (LoggedT.ofResult do
        return (← MonadFiles.readBytes file).mapError (FileError.io file) :
          LoggedT FileError (StateM σ) (List UInt8)).run :=
      .ofResult ((h.readBytes file).bind fun _ => .pure _)
    exact .bind_logged (.ofLogged _) fun _ => .bind_logged hread fun _ =>
      .bind_logged (.ofLogged _) fun _ => .pure _

theorem readTree (root : String) (origin : Origin) :
    Keeps P (Collect.readTree root origin : LoggedT FileError (StateM σ) (List Record)).run := by
  have hwalk : Keeps P (walkTree root : StateM σ (List Item)) :=
    h.depthLimit.bind fun _ => h.walk _ _ _
  exact .bind_logged (.ofResult (hwalk.bind fun _ => .pure _)) fun _ =>
    .mapM_logged fun item _ => h.readItem root origin item

/-- Collecting keeps what asking keeps. -/
theorem collectInputs (serverDir publicDir : String) :
    Keeps P (EdgeBundle.collectInputs serverDir publicDir :
      LoggedT FileError (StateM σ) (List Record)).run := by
  have hroot (root : String) :
      Keeps P (checkRoot root : LoggedT FileError (StateM σ) Unit).run := by
    refine .ofResult ((Keeps.isFolder h.kindOf root).bind fun folder => ?_)
    split <;> exact .pure _
  exact .bind_logged (hroot _) fun _ => .bind_logged (hroot _) fun _ =>
    .bind_logged (h.readTree _ _) fun _ => .bind_logged (h.readTree _ _) fun _ => .pure _

end KeepsAsking

/-! ## Making folders -/

/-- The paths of the folders around a file, the innermost first. -/
def foldersAround (path : String) : List String :=
  match NativePath.parent? path.toList with
  | none | some [] => []
  | some folder => foldersUpFrom (folder.length + 1) folder

theorem createParent_eq {m : Type → Type} [Monad m] [LawfulMonad m] [MonadFiles m] (path : String) :
    (createParent path : m (Except Error Unit)) = do
      let result ← createFolders (foldersAround path)
      return result.mapError (.io (String.ofList ((NativePath.parent? path.toList).getD []))) := by
  rw [createParent, foldersAround]
  match NativePath.parent? path.toList with
  | none | some [] => simp only [createFolders, pure_bind, Except.mapError]
  | some (c :: cs) => rfl

namespace Keeps

/-- What making folders keeps, each of them only if it is not there. -/
theorem createFolders {paths : List String}
    (hfolder : ∀ path ∈ paths, Keeps P (MonadFiles.createFolder path))
    (hkind : ∀ path, Keeps P (MonadFiles.kindOf path)) :
    Keeps P (EdgeBundle.createFolders paths : StateM σ (Except OsError Unit)) := by
  have hsettle (path : String) (result : Except OsError Unit) :
      Keeps P (createFolders.settle path result : StateM σ (Except OsError Unit)) := by
    cases result with
    | ok => exact .pure _
    | error e =>
      refine (isFolder hkind path).bind fun folder => ?_
      split <;> exact .pure _
  induction paths with
  | nil => exact .pure _
  | cons path above ih =>
    rw [List.forall_mem_cons] at hfolder
    refine hfolder.1.bind fun made => ?_
    split
    · exact .pure _
    · refine (ih hfolder.2).bind fun result => ?_
      split
      · exact .pure _
      · exact hfolder.1.bind fun _ => hsettle _ _
    · exact hsettle _ _

theorem createParent {path : String}
    (hfolder : ∀ folder ∈ foldersAround path, Keeps P (MonadFiles.createFolder folder))
    (hkind : ∀ path, Keeps P (MonadFiles.kindOf path)) :
    Keeps P (EdgeBundle.createParent path : StateM σ (Except Error Unit)) := by
  rw [createParent_eq]
  exact (createFolders hfolder hkind).bind fun _ => .pure _

end Keeps

end EdgeBundle
