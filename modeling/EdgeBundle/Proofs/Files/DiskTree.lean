import EdgeBundle.Proofs.Files.Follow
import EdgeBundle.Proofs.Files.Walk
import Mathlib.Data.List.Perm.Subperm

/-!
# Trees on a disk

A disk that is a value shows the trees that stand on it. A path that leads to a folder leads on to
every name in the folder, whatever links lie on the way to it, and below a folder without links no
folder lies deeper than there are folders on the disk.

## Main definitions

* `Disk.IsSegment`: a name stands for itself as a segment of a path.
* `Disk.Carries`: a tree stands at a place of a disk, and its paths are short enough to be used.

## Main statements

* `Disk.find_childPath`: the way to a name in a folder.
* `Disk.Carries.depth_le_folderCount`: the bound on the depth of folders.
* `Disk.Carries.presents`: a disk presents a tree that stands on it.
-/

namespace EdgeBundle.Disk

open Collect

variable {disk : Disk} {place here : Place} {name path : String} {entry : DiskEntry}
  {empties segments : List String}

/-! ## One more name -/

/-- A name that stands for itself as a segment of a path. -/
structure IsSegment (name : String) : Prop where
  /-- It names something in its folder. -/
  isOrdinary : RelPath.isOrdinary name.toList = true
  /-- It is a single segment. -/
  slash_not_mem : '/' ∉ name.toList
  /-- It does not end a text of the system. -/
  nul_not_mem : '\x00' ∉ name.toList
  /-- The system takes it. -/
  size_le : name.utf8ByteSize ≤ maxName

namespace IsSegment

instance (name : String) : Decidable (IsSegment name) :=
  decidable_of_iff
    (RelPath.isOrdinary name.toList = true ∧ '/' ∉ name.toList ∧ '\x00' ∉ name.toList ∧
      name.utf8ByteSize ≤ maxName)
    ⟨fun ⟨h, hslash, hnul, hsize⟩ => ⟨h, hslash, hnul, hsize⟩,
      fun ⟨h, hslash, hnul, hsize⟩ => ⟨h, hslash, hnul, hsize⟩⟩

theorem ne_skip (h : IsSegment name) : ¬(name = "" ∨ name = ".") := by
  obtain ⟨hempty, hdot, -⟩ := RelPath.isOrdinary_iff.mp h.isOrdinary
  rintro (rfl | rfl)
  · exact hempty rfl
  · exact hdot rfl

theorem ne_up (h : IsSegment name) : name ≠ ".." := by
  obtain ⟨-, -, hup⟩ := RelPath.isOrdinary_iff.mp h.isOrdinary
  rintro rfl
  exact hup rfl

theorem namesEntry (h : IsSegment name) : NamesEntry name where
  ne_skip := h.ne_skip
  ne_up := h.ne_up
  size_le := h.size_le

end IsSegment

section Follow

variable {onLink : Place → String → List String → Except OsError Found}

/-- A name in a folder is the end of a way. -/
theorem follow_name (hname : IsSegment name) (hentry : disk.get? (here ++ [name]) = some entry)
    (hlink : ∀ target, entry ≠ .link target) :
    disk.follow true onLink here [name] = .ok (.entry (here ++ [name])) := by
  cases entry with
  | file bytes => exact follow_eq_ok_iff.mpr (.file hname.namesEntry hentry rfl)
  | folder => exact follow_eq_ok_iff.mpr (.enter hname.namesEntry hentry .done)
  | link target => exact absurd rfl (hlink target)

/-- A way to a folder leads on to a name in it, in place of a slash at its end, if the ways through
links do. -/
theorem follow_append_name (hname : IsSegment name) (hfolder : disk.get? place = some .folder)
    (hentry : disk.get? (place ++ [name]) = some entry) (hlink : ∀ target, entry ≠ .link target)
    {last : List String} (hlast : last = [] ∨ last = [""])
    (honLink : ∀ folder target rest, onLink folder target (rest ++ last) = .ok (.entry place) →
      onLink folder target (rest ++ [name]) = .ok (.entry (place ++ [name])))
    (h : disk.follow true onLink here (segments ++ last) = .ok (.entry place)) :
    disk.follow true onLink here (segments ++ [name]) = .ok (.entry (place ++ [name])) := by
  induction segments generalizing here with
  | nil =>
    -- all but a slash is behind, so the way is at the folder
    have hhere : disk.follow true onLink here last = .ok (.entry here) := by
      rcases hlast with rfl | rfl <;> rfl
    rw [List.nil_append, hhere] at h
    cases h
    exact follow_name hname hentry hlink
  | cons segment rest ih =>
    rw [follow_eq_ok_iff, List.cons_append] at h ⊢
    have ih {here : Place} (h : disk.Follows onLink here (rest ++ last) (.entry place)) :=
      follow_eq_ok_iff.mp (ih (follow_eq_ok_iff.mpr h))
    cases h with
    | skip hskip hrest => exact .skip hskip (ih hrest)
    | up hrest => exact .up (ih hrest)
    | enter hentry hget hrest => exact .enter hentry hget (ih hrest)
    | file _ hget =>
      -- the way would end at the file
      rw [hget] at hfolder
      cases hfolder
    | link hentry hget hlink => exact .link hentry hget (honLink _ _ rest hlink)

end Follow

/-- A way to a folder leads on to a name in it through any number of links. -/
theorem resolve_append_name (hname : IsSegment name) (hfolder : disk.get? place = some .folder)
    (hentry : disk.get? (place ++ [name]) = some entry) (hlink : ∀ target, entry ≠ .link target)
    {last : List String} (hlast : last = [] ∨ last = [""]) {links : Nat}
    (h : disk.resolve true links here (segments ++ last) = .ok (.entry place)) :
    disk.resolve true links here (segments ++ [name]) = .ok (.entry (place ++ [name])) := by
  -- a link puts its own segments before those that are left, so these stay general
  induction links generalizing here segments with
  | zero => exact follow_append_name hname hfolder hentry hlink hlast (fun _ _ _ h => nomatch h) h
  | succ links ih =>
    refine follow_append_name hname hfolder hentry hlink hlast (fun folder target rest h => ?_) h
    rw [← List.append_assoc] at h ⊢
    exact ih h

/-! ## Paths to names -/

/-- The segments of a path to a name in a folder are those of the path to the folder, without a
slash at its end, and the name. -/
theorem segmentsOf_childPath (hpath : path ≠ "") (hslash : '/' ∉ name.toList) :
    ∃ before last, (last = [] ∨ last = [""]) ∧ segmentsOf path = before ++ last ∧
      segmentsOf (childPath path name) = before ++ [name] := by
  have hend (before : List Char) :
      (segments (before ++ '/' :: name.toList)).map String.ofList =
        (segments before).map String.ofList ++ [name] := by
    rw [segments_append, segments_of_slash_not_mem hslash, List.map_append, List.map_singleton,
      String.ofList_toList]
  rw [segmentsOf, segmentsOf, childPath, String.toList_ofList,
    NativePath.join_of_slash_not_mem _ hslash]
  split
  next h =>
    obtain ⟨before, hbefore⟩ := List.getLast?_eq_some_iff.mp
      (h.resolve_left fun h => hpath (String.toList_eq_nil_iff.mp h))
    rw [hbefore, List.append_assoc, List.singleton_append]
    exact ⟨_, _, .inr rfl, by rw [segments_append, List.map_append]; rfl, hend before⟩
  next => exact ⟨_, _, .inl rfl, (List.append_nil _).symm, hend path.toList⟩

theorem mem_childPath {c : Char} (h : c ∈ (childPath path name).toList) :
    c ∈ path.toList ∨ c = '/' ∨ c ∈ name.toList := by
  rw [childPath, String.toList_ofList, NativePath.join] at h
  split at h
  · exact .inr (.inr h)
  split at h
  · exact (List.mem_append.mp h).imp_right .inr
  · exact (List.mem_append.mp h).imp_right List.mem_cons.mp

theorem isAbsolute_childPath (hpath : path ≠ "") (hslash : '/' ∉ name.toList) :
    isAbsolute (childPath path name) = isAbsolute path := by
  obtain ⟨c, cs, hcs⟩ := List.exists_cons_of_ne_nil (mt String.toList_eq_nil_iff.mp hpath)
  rw [isAbsolute, isAbsolute, childPath, String.toList_ofList,
    NativePath.join_of_slash_not_mem _ hslash, hcs]
  split <;> rfl

/-- A path leads to a place if the system takes it and its segments lead there. -/
theorem find_eq_ok_iff :
    disk.find path = .ok place ↔
      ('\x00' ∉ path.toList ∧ path ≠ "" ∧ path.utf8ByteSize ≤ maxPath) ∧
        disk.resolve true maxLinks (if isAbsolute path then [] else disk.current)
          (segmentsOf path) = .ok (.entry place) := by
  rw [find, locate, start]
  by_cases hnul : path.toList.contains '\x00' = true
  · rw [if_pos hnul]
    exact iff_of_false nofun fun h => h.1.1 (List.contains_iff_mem.mp hnul)
  rw [if_neg hnul]
  by_cases hempty : path.isEmpty = true
  · rw [if_pos hempty]
    exact iff_of_false nofun fun h => h.1.2.1 (String.isEmpty_iff.mp hempty)
  rw [if_neg hempty]
  by_cases hlong : maxPath < path.utf8ByteSize
  · rw [if_pos hlong]
    exact iff_of_false nofun fun h => absurd h.1.2.2 (Nat.not_le.mpr hlong)
  -- the system takes the path
  have htaken : '\x00' ∉ path.toList ∧ path ≠ "" ∧ path.utf8ByteSize ≤ maxPath :=
    ⟨mt List.contains_iff_mem.mpr hnul, mt String.isEmpty_iff.mpr hempty, Nat.not_lt.mp hlong⟩
  rw [if_neg hlong, and_iff_right htaken]
  change (disk.resolve true maxLinks _ _ >>= _) = _ ↔ _
  cases disk.resolve true maxLinks (if isAbsolute path then [] else disk.current)
    (segmentsOf path) with
  | error e => exact iff_of_false nofun nofun
  | ok found =>
    cases found with
    | entry other =>
      change Except.ok other = _ ↔ _
      rw [Except.ok.injEq, Except.ok.injEq, Found.entry.injEq]
    | free folder name slash => exact iff_of_false nofun nofun

/-- The path of a name in a folder leads to the name, if the system takes the path. -/
theorem find_childPath (hname : IsSegment name)
    (hlength : (childPath path name).utf8ByteSize ≤ maxPath) (hfind : disk.find path = .ok place)
    (hfolder : disk.get? place = some .folder)
    (hentry : disk.get? (place ++ [name]) = some entry) (hlink : ∀ target, entry ≠ .link target) :
    disk.find (childPath path name) = .ok (place ++ [name]) := by
  obtain ⟨⟨hnul, hpath, -⟩, hresolve⟩ := find_eq_ok_iff.mp hfind
  obtain ⟨before, last, hlast, hsegments, hchild⟩ :=
    segmentsOf_childPath hpath hname.slash_not_mem
  rw [hsegments] at hresolve
  refine find_eq_ok_iff.mpr ⟨⟨fun h => ?_, ?_, hlength⟩, ?_⟩
  · rcases mem_childPath h with h | h | h
    · exact hnul h
    · exact absurd h (by decide)
    · exact hname.nul_not_mem h
  · intro hempty
    -- the empty path has one segment, which is empty, and names are not
    have hend : (segmentsOf "").getLast? = some name := by
      rw [← hempty, hchild, List.getLast?_concat]
    have hname_eq : "" = name := Option.some.inj hend
    exact hname.ne_skip (.inl hname_eq.symm)
  · rw [isAbsolute_childPath hpath hname.slash_not_mem, hchild]
    exact resolve_append_name hname hfolder hentry hlink hlast hresolve

/-! ## Trees -/

/-- A tree stands at a place that a path leads to. There are no links in it, and the system takes
its names and the paths to them. -/
inductive Carries (disk : Disk) : String → Place → FileTree → Prop where
  /-- A file with its content. -/
  | file {path : String} {place : Place} {bytes : List UInt8}
      (h : disk.get? place = some (.file bytes)) : Carries disk path place (.file bytes)
  /-- A folder with its names. -/
  | folder {path : String} {place : Place} {children : List (String × FileTree)}
      (h : disk.get? place = some .folder)
      (hlist : (disk.children place).map (fun e => FolderEntry.mk e.1 e.2.kind) =
        children.map fun c => ⟨c.1, c.2.kind⟩)
      (hnames : ∀ c ∈ children,
        IsSegment c.1 ∧ (childPath path c.1).utf8ByteSize ≤ maxPath)
      (hchildren : ∀ c ∈ children, Carries disk (childPath path c.1) (place ++ [c.1]) c.2) :
      Carries disk path place (.folder children)

variable {t : FileTree} {root : String}

/-- There is no link where a tree stands. -/
theorem Carries.exists_entry (h : disk.Carries path place t) :
    ∃ entry, disk.get? place = some entry ∧ ∀ target, entry ≠ .link target := by
  cases h with
  | file h => exact ⟨_, h, nofun⟩
  | folder h => exact ⟨_, h, nofun⟩

/-- A disk shows a tree that stands on it. -/
theorem Carries.shows (h : disk.Carries path place t) (hfind : disk.find path = .ok place) :
    Shows disk path t := by
  induction h with
  | @file path place bytes h =>
    have hread : disk.readBytes path = .ok bytes := by
      simp only [readBytes, hfind, bind, Except.bind, h]
      rfl
    exact .file (congrArg (·, disk) hread)
  | @folder path place children h hlist hnames hchildren ih =>
    have hlisted : disk.listFolder path = .ok (children.map fun c => ⟨c.1, c.2.kind⟩) := by
      rw [← hlist]
      simp only [listFolder, hfind, bind, Except.bind, h, if_true]
      rfl
    have hreal : disk.realPath path = .ok (pathOf place) := by
      simp only [realPath, hfind]
      rfl
    refine .folder (congrArg (·, disk) hlisted) (congrArg (·, disk) hreal) fun c hc => ih c hc ?_
    obtain ⟨entry, hentry, hlink⟩ := (hchildren c hc).exists_entry
    exact find_childPath (hnames c hc).1 (hnames c hc).2 hfind h hentry hlink

/-- Folders lie in each other as deep as the tree says. -/
theorem Carries.exists_chain (h : disk.Carries path place t) :
    ∃ chain : List Place, chain.length = t.depth ∧
      chain.Pairwise (fun p q => p.length < q.length) ∧
      ∀ p ∈ chain, place.length ≤ p.length ∧ disk.get? p = some .folder := by
  induction h with
  | file => exact ⟨[], rfl, .nil, nofun⟩
  | @folder path place children h _ _ _ ih =>
    rcases FileTree.depthOf_eq_zero_or children with hzero | ⟨c, hc, hdepth⟩
    · refine ⟨[place], by rw [FileTree.depth, hzero]; rfl, List.pairwise_singleton _ _, ?_⟩
      exact List.forall_mem_singleton.mpr ⟨le_rfl, h⟩
    -- the folder comes before the chain of the name below which folders lie deepest
    · obtain ⟨chain, hlength, hchain, hfolders⟩ := ih c hc
      have hbelow : ∀ p ∈ chain, place.length < p.length := fun p hp => by
        have := (hfolders p hp).1
        rwa [List.length_append] at this
      refine ⟨place :: chain, ?_, List.pairwise_cons.mpr ⟨hbelow, hchain⟩, ?_⟩
      · rw [List.length_cons, hlength, hdepth, FileTree.depth]
      · exact List.forall_mem_cons.mpr
          ⟨⟨le_rfl, h⟩, fun p hp => ⟨(hbelow p hp).le, (hfolders p hp).2⟩⟩

/-- What stands below the root has an entry. -/
theorem mem_entries_of_get? (hplace : place ≠ []) (h : disk.get? place = some entry) :
    (place, entry) ∈ disk.entries := by
  rw [get?, if_neg (mt List.isEmpty_iff.mp hplace)] at h
  obtain ⟨before, after, hentries, -⟩ := List.lookup_eq_some_iff.mp h
  rw [hentries]
  exact List.mem_append_right _ List.mem_cons_self

/-- No folder lies deeper than there are folders. -/
theorem Carries.depth_le_folderCount (h : disk.Carries path place t) :
    t.depth ≤ disk.folderCount := by
  obtain ⟨chain, hlength, hchain, hfolders⟩ := h.exists_chain
  rw [← hlength, folderCount]
  cases chain with
  | nil => exact Nat.zero_le _
  | cons top chain =>
    rw [List.pairwise_cons] at hchain
    refine Nat.succ_le_succ ?_
    -- every folder below the top one has an entry of its own
    have hnodup : (chain.map fun p => (p, DiskEntry.folder)).Nodup := by
      refine List.pairwise_map.mpr (hchain.2.imp ?_)
      rintro p q hlt heq
      rw [(Prod.mk.inj heq).1] at hlt
      exact Nat.lt_irrefl _ hlt
    have hsub : (chain.map fun p => (p, DiskEntry.folder)) ⊆
        disk.entries.filter fun e => e.2 == .folder := by
      refine List.forall_mem_map.mpr fun p hp => List.mem_filter.mpr ⟨?_, rfl⟩
      have hne : p ≠ [] := by
        rintro rfl
        exact Nat.not_lt_zero _ (hchain.1 _ hp)
      exact mem_entries_of_get? hne (hfolders p (List.mem_cons_of_mem _ hp)).2
    rw [← List.length_map (f := fun p => (p, DiskEntry.folder))]
    exact (hnodup.subperm hsub).length_le

/-- A disk presents a tree that stands on it. -/
theorem Carries.presents (h : disk.Carries root place t) (hfind : disk.find root = .ok place)
    (hkind : t.kind = .folder) : Presents disk root t where
  kindOf_root := by
    cases h with
    | file => cases hkind
    | folder h =>
      have hroot : disk.kindOf root = .ok .folder := by
        simp only [kindOf, hfind, bind, Except.bind, h]
        rfl
      exact congrArg (·, disk) hroot
  kind_eq := hkind
  shows := h.shows hfind
  depth_le := ⟨_, rfl, h.depth_le_folderCount⟩

end EdgeBundle.Disk
