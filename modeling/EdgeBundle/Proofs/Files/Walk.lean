import EdgeBundle.Files.Collect
import EdgeBundle.Proofs.Files.Below
import EdgeBundle.Proofs.Files.Tree

/-!
# Walking a tree

A file system shows a tree under a path if it lists its folders and gives the contents of its files
under the paths below. A walk of a folder comes to the files of the tree that is shown there, in the
order of the tree.

## Main definitions

* `Reads`: a computation gives a value and leaves the state of the file system as it is.
* `Shows`: a file system shows a tree under a path.
* `Presents`: it shows the tree to a walk from its top folder.

## Main statements

* `Shows.reads_bytes`: the content of a file of the tree is read under its path.
* `Presents.reads_walkTree`: a walk comes to the files of the tree in order.
-/

namespace EdgeBundle

variable {σ α β ε : Type} {s : σ}

/-! ## Computations that only read -/

/-- In a state a computation gives a value, and the state stays as it is. -/
def Reads (s : σ) (x : StateM σ α) (a : α) : Prop :=
  x.run s = (a, s)

namespace Reads

protected theorem pure (a : α) : Reads s (pure a) a := rfl

protected theorem bind {x : StateM σ α} {f : α → StateM σ β} {a : α} {b : β} (hx : Reads s x a)
    (hf : Reads s (f a) b) : Reads s (x >>= f) b := by
  rw [Reads, StateT.run_bind, hx]
  exact hf

protected theorem mapM {f : α → StateM σ β} {g : α → β} {xs : List α}
    (h : ∀ a ∈ xs, Reads s (f a) (g a)) : Reads s (xs.mapM f) (xs.map g) := by
  induction xs with
  | nil => exact .pure _
  | cons a xs ih =>
    rw [List.forall_mem_cons] at h
    rw [List.mapM_cons]
    exact h.1.bind ((ih h.2).bind (.pure _))

theorem ofLogged (x : Logged ε α) : Reads s (LoggedT.ofLogged x : LoggedT ε (StateM σ) α).run x :=
  rfl

theorem ofResult {x : StateM σ (Except ε α)} {r : Except ε α} (hx : Reads s x r) :
    Reads s (LoggedT.ofResult x).run (Logged.ofExcept r) :=
  hx.bind (.pure _)

/-- Two steps that may fail, the second one after the value of the first. -/
theorem bind_logged {x : LoggedT ε (StateM σ) α} {f : α → LoggedT ε (StateM σ) β}
    {first : Logged ε α} {g : α → Logged ε β} (hx : Reads s x.run first)
    (hf : ∀ a, first.result = .ok a → Reads s (f a).run (g a)) :
    Reads s (x >>= f).run (first >>= g) := by
  change Reads s (LoggedT.bind x f) (Logged.bind first g)
  rw [LoggedT.bind]
  refine hx.bind ?_
  rw [Logged.bind]
  obtain ⟨result, warnings⟩ := first
  cases result with
  | ok a => exact (hf a rfl).bind (.pure _)
  | error e => exact .pure _

/-- A step for every item of a list that may fail. -/
theorem mapM_logged {γ : Type} {f : β → LoggedT ε (StateM σ) γ} {item : α → β}
    {g : α → Logged ε γ} {xs : List α} (h : ∀ a ∈ xs, Reads s (f (item a)).run (g a)) :
    Reads s ((xs.map item).mapM f).run (xs.mapM g) := by
  unfold List.mapM
  -- on the items, for all that the loop has gathered before
  generalize ([] : List γ) = gathered
  induction xs generalizing gathered with
  | nil => exact .pure _
  | cons a xs ih =>
    rw [List.forall_mem_cons] at h
    exact bind_logged h.1 fun b _ => ih h.2 (b :: gathered)

end Reads

/-! ## Trees that are shown -/

namespace Collect

/-- The path at the end of a way from a folder. -/
def pathAlong (folder : String) (place : Place) : String :=
  place.foldl childPath folder

theorem components_pathAlong {place : Place}
    (hplace : ∀ n ∈ place, RelPath.isOrdinary n.toList = true ∧ '/' ∉ n.toList)
    (folder : String) :
    NativePath.components (pathAlong folder place).toList =
      NativePath.components folder.toList ++ (place.map String.toList).map .name := by
  induction place generalizing folder with
  | nil => exact (List.append_nil _).symm
  | cons name place ih =>
    rw [List.forall_mem_cons] at hplace
    have hjoin : (childPath folder name).toList = NativePath.join folder.toList name.toList :=
      String.toList_ofList
    have hrest : pathAlong folder (name :: place) = pathAlong (childPath folder name) place := rfl
    rw [hrest, ih hplace.2, hjoin, NativePath.components_join _ hplace.1.1 hplace.1.2,
      List.append_assoc]
    rfl

/-- What a walk makes of a tree under a path: the paths of its files. -/
def found (folder : String) (t : FileTree) : List Item :=
  t.files.map fun f => .ok (pathAlong folder f.1)

/-- A folder holds what stands under its names, in ascending order of the names. -/
theorem found_folder (folder : String) (children : List (String × FileTree)) :
    found folder (.folder children) =
      ((children.mergeSort FileTree.byName).map fun c =>
        found (childPath folder c.1) c.2).flatten := by
  rw [found, FileTree.files_folder, List.map_flatMap, List.flatMap]
  congr 1
  refine List.map_congr_left fun c _ => ?_
  rw [found, List.map_map]
  rfl

end Collect

open Collect

variable [MonadFiles (StateM σ)]

/-- A file system shows a tree under a path: it gives the contents of files and lists the names of
folders, and it shows what stands under the names. -/
inductive Shows (s : σ) : String → FileTree → Prop where
  /-- The content of a file is read. -/
  | file {path : String} {bytes : List UInt8}
      (hread : Reads s (MonadFiles.readBytes path) (.ok bytes)) : Shows s path (.file bytes)
  /-- A folder is listed, and its place is known. -/
  | folder {path real : String} {children : List (String × FileTree)}
      (hlist : Reads s (MonadFiles.listFolder path)
        (.ok (children.map fun c => ⟨c.1, c.2.kind⟩)))
      (hreal : Reads s (MonadFiles.realPath path) (.ok real))
      (h : ∀ c ∈ children, Shows s (childPath path c.1) c.2) : Shows s path (.folder children)
  /-- Nothing is asked of what is neither file nor folder. -/
  | other {path : String} : Shows s path .other

/-- A file system presents a tree to a walk: it shows the tree under the path of its top folder, and
the tree is no deeper than folders lie. -/
structure Presents (s : σ) (root : String) (t : FileTree) : Prop where
  /-- The path leads to a folder. -/
  kindOf_root : Reads s (MonadFiles.kindOf root) (.ok .folder)
  /-- The tree is a folder. -/
  kind_eq : t.kind = .folder
  /-- The tree is shown there. -/
  shows : Shows s root t
  /-- The bound on the depth of folders holds. -/
  depth_le : ∃ limit, Reads s MonadFiles.depthLimit limit ∧ t.depth ≤ limit

variable {root folder path : String} {t : FileTree} {children : List (String × FileTree)}

/-- The content of a file of a tree is read under its path. -/
theorem Shows.reads_bytes {place : Place} {bytes : List UInt8} (h : Shows s path t)
    (hholds : t.Holds place bytes) :
    Reads s (MonadFiles.readBytes (pathAlong path place)) (.ok bytes) := by
  induction hholds generalizing path with
  | file =>
    cases h with
    | file hread => exact hread
  | folder hc _ ih =>
    cases h with
    | folder _ _ hchildren => exact ih (hchildren _ hc)

/-- Entries are sorted like what stands under their names. -/
theorem Collect.sortEntries_map (children : List (String × FileTree)) :
    sortEntries (children.map fun c => ⟨c.1, c.2.kind⟩) =
      (children.mergeSort FileTree.byName).map fun c => ⟨c.1, c.2.kind⟩ := by
  rw [sortEntries]
  refine (List.map_mergeSort (r := FileTree.byName) fun a _ b _ => ?_).symm
  exact decide_eq_decide.mpr utf8Bytes_le_iff

/-- A walk comes to a file itself, and it enters a folder. -/
theorem Collect.reads_walkEntry (way : Way) (enter : String → StateM σ (List Item)) (name : String)
    (h : t.kind = .folder →
      Reads s (enter (childPath folder name)) (found (childPath folder name) t)) :
    Reads s (walkEntry way enter folder ⟨name, t.kind⟩) (found (childPath folder name) t) := by
  cases t with
  | file bytes => exact .pure _
  | folder children => exact h rfl
  | other => exact .pure _

/-- A walk of a folder comes to the files of the tree that is shown there. -/
theorem Shows.reads_walk (h : Shows s folder t) (hkind : t.kind = .folder) {depth : Nat}
    (hdepth : t.depth ≤ depth) (way : Way) : Reads s (walk depth way folder) (found folder t) := by
  -- the bound on the depth goes down with every folder that is entered
  induction h generalizing depth way with
  | file => cases hkind
  | other => cases hkind
  | @folder path real children hlist hreal _ ih =>
    cases depth with
    | zero => exact absurd hdepth (Nat.not_succ_le_zero _)
    | succ depth =>
      -- what the walk knows of the folders that it is in matters for links only
      have hentry (inner : Way) : ∀ c ∈ children.mergeSort FileTree.byName,
          Reads s (walkEntry inner (walk depth inner) path ⟨c.1, c.2.kind⟩)
            (found (childPath path c.1) c.2) := by
        intro c hc
        have hmem := List.mem_mergeSort.mp hc
        refine reads_walkEntry inner _ c.1 fun hfolder => ih c hmem hfolder ?_ inner
        exact (FileTree.depth_le_depthOf hmem).trans (Nat.le_of_succ_le_succ hdepth)
      rw [walk, found_folder]
      refine hlist.bind (hreal.bind ?_)
      dsimp only
      rw [sortEntries_map, List.mapM_map]
      exact (Reads.mapM (hentry _)).bind (.pure _)

/-- A walk from the top of a tree comes to the files of the tree in order. -/
theorem Presents.reads_walkTree (h : Presents s root t) :
    Reads s (walkTree root) (found root t) := by
  obtain ⟨limit, hlimit, hdepth⟩ := h.depth_le
  exact hlimit.bind (h.shows.reads_walk h.kind_eq hdepth _)

end EdgeBundle
