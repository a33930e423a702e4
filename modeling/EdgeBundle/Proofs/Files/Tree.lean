import EdgeBundle.Files.Disk
import EdgeBundle.Proofs.Path.Segments
import EdgeBundle.Proofs.Text.ByteOrder
import Mathlib.Data.List.Perm.Basic

/-!
# Trees of files

A folder with all that stands below it. Folders list their names in some order, and the files of a
tree are found depth first with the names of every folder in ascending order, so this order does not
show: the files come in the order of their ways, compared name by name.

## Main definitions

* `FileTree`: what stands under a name.
* `FileTree.files`: the files of a tree, depth first, with the ways to them.
* `FileTree.Holds`: a file stands at the end of a way.
* `FileTree.WellNamed`: names are single segments, and no folder has two entries of one name.
* `FileTree.Reordered`: the same tree with folders listed in another order.

## Main statements

* `FileTree.mem_files`: the files found are those that the tree holds.
* `FileTree.pairwise_files`: they come in ascending order of their ways.
* `FileTree.Reordered.files_eq`: they do not depend on the order in which folders are listed.
-/

namespace EdgeBundle

/-- What stands under a name: a file with its content, a folder with what stands under its names, in
the order in which they are listed, or something else. -/
inductive FileTree where
  /-- A regular file. -/
  | file (bytes : List UInt8)
  /-- A folder. -/
  | folder (children : List (String × FileTree))
  /-- Neither file nor folder. -/
  | other

/-- The first way branches off to a smaller name, or the second one goes on from it. Names are
compared by their bytes. -/
def Place.Precedes (p q : Place) : Prop :=
  List.Lex (fun a b => utf8Bytes a < utf8Bytes b) p q

theorem Place.precedes_iff {p q : Place} : p.Precedes q ↔ p < q := by
  have hlt : (fun a b => utf8Bytes a < utf8Bytes b) = fun a b : String => a < b := by
    funext a b
    exact propext utf8Bytes_lt_iff
  rw [Precedes, hlt]
  rfl

namespace FileTree

variable {α : Type} {t u v : FileTree} {children : List (String × FileTree)} {place : Place}
  {bytes : List UInt8}

/-- Kind of what stands under the name. -/
def kind : FileTree → EntryKind
  | file _ => .file
  | folder _ => .folder
  | other => .other

/-! ## Files in order -/

/-- Whether the name of an entry is at most that of another one, by their bytes. -/
def byName (a b : String × α) : Bool :=
  utf8Bytes a.1 ≤ utf8Bytes b.1

mutual

/-- The files of a tree with the ways to them: depth first, the names of every folder in ascending
order. -/
def files : FileTree → List (Place × List UInt8)
  | file bytes => [([], bytes)]
  | folder children =>
    ((filesOf children).mergeSort byName).flatMap fun c => c.2.map fun f => (c.1 :: f.1, f.2)
  | other => []

/-- The files under every name of a folder. -/
def filesOf : List (String × FileTree) → List (String × List (Place × List UInt8))
  | [] => []
  | (name, tree) :: rest => (name, tree.files) :: filesOf rest

end

mutual

/-- Number of folders that lie in each other. -/
def depth : FileTree → Nat
  | file _ => 0
  | folder children => depthOf children + 1
  | other => 0

/-- Greatest depth under the names of a folder. -/
def depthOf : List (String × FileTree) → Nat
  | [] => 0
  | (_, tree) :: rest => max tree.depth (depthOf rest)

end

theorem filesOf_eq (children : List (String × FileTree)) :
    filesOf children = children.map fun c => (c.1, c.2.files) := by
  induction children with
  | nil => rfl
  | cons c rest ih => rw [List.map_cons, ← ih]; rfl

/-- The files of a folder are those under its names, in ascending order of the names. -/
theorem files_folder (children : List (String × FileTree)) :
    (folder children).files =
      (children.mergeSort byName).flatMap fun c => c.2.files.map fun f => (c.1 :: f.1, f.2) := by
  have hsort : (children.mergeSort byName).map (fun c => (c.1, c.2.files)) =
      (children.map fun c => (c.1, c.2.files)).mergeSort byName :=
    List.map_mergeSort (r := byName) fun _ _ _ _ => rfl
  rw [files, filesOf_eq, ← hsort, List.flatMap_map]

/-- A folder that lists its names in ascending order holds its files in the order of the listing. -/
theorem files_folder_of_pairwise (h : children.Pairwise fun a b => byName a b) :
    (folder children).files =
      children.flatMap fun c => c.2.files.map fun f => (c.1 :: f.1, f.2) := by
  rw [files_folder, List.mergeSort_of_pairwise h]

theorem depth_le_depthOf {c : String × FileTree} (hc : c ∈ children) :
    c.2.depth ≤ depthOf children := by
  induction children with
  | nil => cases hc
  | cons first rest ih =>
    rw [depthOf]
    rcases List.mem_cons.mp hc with rfl | hc
    · exact le_max_left _ _
    · exact (ih hc).trans (le_max_right _ _)

/-- The greatest depth is that of one of the names. -/
theorem depthOf_eq_zero_or (children : List (String × FileTree)) :
    depthOf children = 0 ∨ ∃ c ∈ children, c.2.depth = depthOf children := by
  induction children with
  | nil => exact .inl rfl
  | cons first rest ih =>
    rw [depthOf]
    rcases le_total (depthOf rest) first.2.depth with hle | hle
    · exact .inr ⟨first, List.mem_cons_self, (max_eq_left hle).symm⟩
    · rw [max_eq_right hle]
      exact ih.imp_right fun ⟨c, hc, h⟩ => ⟨c, List.mem_cons_of_mem _ hc, h⟩

theorem byName_trans (a b c : String × α) (hab : byName a b = true) (hbc : byName b c = true) :
    byName a c = true := by
  simp only [byName, decide_eq_true_eq, utf8Bytes_le_iff] at hab hbc ⊢
  exact hab.trans hbc

theorem byName_total (a b : String × α) : (byName a b || byName b a) = true := by
  simp only [byName, Bool.or_eq_true, decide_eq_true_eq, utf8Bytes_le_iff]
  exact le_total _ _

/-- Entries of different names are in strictly ascending order when they are sorted. -/
theorem pairwise_sorted {entries : List (String × α)} (h : (entries.map Prod.fst).Nodup) :
    (entries.mergeSort byName).Pairwise fun a b => utf8Bytes a.1 < utf8Bytes b.1 := by
  have hne : (entries.mergeSort byName).Pairwise fun a b => a.1 ≠ b.1 :=
    List.pairwise_map.mp (((List.mergeSort_perm entries byName).map Prod.fst).nodup_iff.mpr h)
  refine ((List.pairwise_mergeSort byName_trans byName_total entries).and hne).imp ?_
  rintro a b ⟨hle, hne⟩
  rw [byName, decide_eq_true_eq, utf8Bytes_le_iff] at hle
  exact utf8Bytes_lt (lt_of_le_of_ne hle hne)

/-! ## Files at the end of ways -/

/-- A file with the given content stands at the end of a way. -/
inductive Holds : FileTree → Place → List UInt8 → Prop where
  /-- The file itself. -/
  | file {bytes : List UInt8} : Holds (.file bytes) [] bytes
  /-- A file below a folder. -/
  | folder {children : List (String × FileTree)} {c : String × FileTree} {place : Place}
      {bytes : List UInt8} (hc : c ∈ children) (h : Holds c.2 place bytes) :
      Holds (.folder children) (c.1 :: place) bytes

/-- The files that are found are those that the tree holds. -/
theorem mem_files : (place, bytes) ∈ t.files ↔ t.Holds place bytes := by
  -- on the way, since a folder is left with its first name
  induction place generalizing t with
  | nil =>
    cases t with
    | file content =>
      rw [files, List.mem_singleton, Prod.mk.injEq]
      constructor
      · rintro ⟨-, rfl⟩
        exact .file
      · rintro ⟨⟩
        exact ⟨rfl, rfl⟩
    | folder children =>
      refine iff_of_false ?_ nofun
      simp [files_folder]
    | other => exact iff_of_false List.not_mem_nil nofun
  | cons name place ih =>
    cases t with
    | file content => exact iff_of_false (by simp [files]) nofun
    | folder children =>
      rw [files_folder, List.mem_flatMap]
      constructor
      · rintro ⟨c, hc, hmem⟩
        obtain ⟨f, hf, heq⟩ := List.mem_map.mp hmem
        obtain ⟨hway, rfl⟩ := Prod.mk.inj heq
        obtain ⟨rfl, rfl⟩ := List.cons.inj hway
        exact .folder (List.mem_mergeSort.mp hc) (ih.mp hf)
      · rintro (_ | ⟨hc, h⟩)
        exact ⟨_, List.mem_mergeSort.mpr hc, List.mem_map.mpr ⟨_, ih.mpr h, rfl⟩⟩
    | other => exact iff_of_false List.not_mem_nil nofun

/-- Names are single segments that name something, and no folder has two entries of one name. -/
inductive WellNamed : FileTree → Prop where
  /-- A file has no names in it. -/
  | file {bytes : List UInt8} : WellNamed (.file bytes)
  /-- A folder with its names. -/
  | folder {children : List (String × FileTree)} (hnodup : (children.map Prod.fst).Nodup)
      (hnames : ∀ c ∈ children, RelPath.isOrdinary c.1.toList = true ∧ '/' ∉ c.1.toList)
      (h : ∀ c ∈ children, WellNamed c.2) : WellNamed (.folder children)
  /-- Nor has what is neither file nor folder. -/
  | other : WellNamed .other

/-- The files come in ascending order of their ways, so every file comes once. -/
theorem pairwise_files (h : t.WellNamed) : t.files.Pairwise fun f g => f.1.Precedes g.1 := by
  induction h with
  | file => exact List.pairwise_singleton _ _
  | other => exact .nil
  | @folder children hnodup _ _ ih =>
    rw [files_folder, List.pairwise_flatMap]
    -- under one name the ways go on in order, and under two names they branch off there
    constructor
    · intro c hc
      rw [List.pairwise_map]
      exact (ih c (List.mem_mergeSort.mp hc)).imp fun hlt => .cons hlt
    · refine (pairwise_sorted hnodup).imp fun hlt x hx y hy => ?_
      obtain ⟨f, -, rfl⟩ := List.mem_map.mp hx
      obtain ⟨g, -, rfl⟩ := List.mem_map.mp hy
      exact .rel hlt

/-- Trees that hold the same files have them in the same order. -/
theorem files_eq_of_holds_iff (ht : t.WellNamed) (hu : u.WellNamed)
    (h : ∀ place bytes, t.Holds place bytes ↔ u.Holds place bytes) : t.files = u.files := by
  have hnodup {v : FileTree} (hv : v.WellNamed) : v.files.Nodup := by
    refine (pairwise_files hv).imp ?_
    rintro f g hlt rfl
    exact List.lt_irrefl _ (Place.precedes_iff.mp hlt)
  -- lists with the same members are the same if both are sorted
  have hperm : t.files.Perm u.files := by
    rw [List.perm_ext_iff_of_nodup (hnodup ht) (hnodup hu)]
    rintro ⟨place, bytes⟩
    rw [mem_files, mem_files, h]
  refine hperm.eq_of_pairwise (fun f g _ _ hfg hgf => ?_) (pairwise_files ht) (pairwise_files hu)
  exact absurd (Place.precedes_iff.mp hgf) (List.lt_asymm (Place.precedes_iff.mp hfg))

/-! ## Other orders of listing -/

/-- The same tree, but for the order in which folders list their names. -/
inductive Reordered : FileTree → FileTree → Prop where
  /-- The tree as it is. -/
  | refl (t : FileTree) : Reordered t t
  /-- One change after the other. -/
  | trans {t u v : FileTree} (htu : Reordered t u) (huv : Reordered u v) : Reordered t v
  /-- The names of the folder are listed in another order. -/
  | listing {children others : List (String × FileTree)} (h : children.Perm others) :
      Reordered (.folder children) (.folder others)
  /-- The change is below one of the names. -/
  | under {t u : FileTree} (h : Reordered t u) (name : String)
      (before after : List (String × FileTree)) :
      Reordered (.folder (before ++ (name, t) :: after)) (.folder (before ++ (name, u) :: after))

namespace Reordered

theorem symm (h : Reordered t u) : Reordered u t := by
  induction h with
  | refl t => exact .refl t
  | trans _ _ ihtu ihuv => exact .trans ihuv ihtu
  | listing h => exact .listing h.symm
  | under _ name before after ih => exact .under ih name before after

/-- Another order of listing loses no file. -/
theorem holds (h : Reordered t u) (hholds : t.Holds place bytes) : u.Holds place bytes := by
  induction h generalizing place with
  | refl => exact hholds
  | trans _ _ ihtu ihuv => exact ihuv (ihtu hholds)
  | listing h =>
    obtain _ | ⟨hc, hholds⟩ := hholds
    exact .folder (h.mem_iff.mp hc) hholds
  | @under t u _ name before after ih =>
    obtain _ | ⟨hc, hholds⟩ := hholds
    rcases List.mem_append.mp hc with hc | hc
    · exact .folder (List.mem_append_left _ hc) hholds
    rcases List.mem_cons.mp hc with rfl | hc
    · exact .folder (c := (name, u)) (List.mem_append_right _ List.mem_cons_self) (ih hholds)
    · exact .folder (List.mem_append_right _ (List.mem_cons_of_mem _ hc)) hholds

theorem wellNamed (h : Reordered t u) (ht : t.WellNamed) : u.WellNamed := by
  induction h with
  | refl => exact ht
  | trans _ _ ihtu ihuv => exact ihuv (ihtu ht)
  | listing h =>
    obtain _ | ⟨hnodup, hnames, hchildren⟩ := ht
    exact .folder ((h.map Prod.fst).nodup_iff.mp hnodup)
      (fun c hc => hnames c (h.mem_iff.mpr hc)) fun c hc => hchildren c (h.mem_iff.mpr hc)
  | @under t u _ name before after ih =>
    obtain _ | ⟨hnodup, hnames, hchildren⟩ := ht
    rw [List.forall_mem_append, List.forall_mem_cons] at hnames hchildren
    refine .folder ?_ ?_ ?_
    · simpa using hnodup
    · rw [List.forall_mem_append, List.forall_mem_cons]
      exact hnames
    · rw [List.forall_mem_append, List.forall_mem_cons]
      exact ⟨hchildren.1, ih hchildren.2.1, hchildren.2.2⟩

/-- The files of a tree do not depend on the order in which folders are listed. -/
theorem files_eq (h : Reordered t u) (ht : t.WellNamed) : t.files = u.files :=
  files_eq_of_holds_iff ht (h.wellNamed ht) fun _ _ => ⟨h.holds, h.symm.holds⟩

end Reordered

end FileTree

end EdgeBundle
