import EdgeBundle.Proofs.Files.DiskState
import EdgeBundle.Proofs.Logged

/-!
# Ways on a disk

A way to a folder depends on the folders and links of a disk only, so it leads where it led before
as long as these stay. What a path names is its last segment, in the folder that the segments before
it lead to.

## Main definitions

* `Disk.KeepsWays`: the folders and links of a disk are on another one.
* `Disk.namedPlace?`: the place that a path names.

## Main statements

* `Disk.IsTree.locate_isOn`: where a path leads on a tree.
* `Disk.KeepsWays.findParent_eq_ok`: the folder that a path names something in stays the same.
* `Disk.locate_of_findParent`: a path leads to what it names, unless that is a link.
-/

namespace EdgeBundle.Disk

variable {disk disk' : Disk} {place folder here : Place} {entry : DiskEntry} {name path : String}
  {segments way : List String} {last : Option String} {slash : Bool}

/-! ## Ways -/

/-- The folders and links of a disk, and its current folder, are those of another disk. -/
structure KeepsWays (disk disk' : Disk) : Prop where
  /-- The current folder is the same. -/
  current_eq : disk'.current = disk.current
  /-- Folders and links stay what they are. -/
  get?_eq : ∀ place entry, entry.kind ≠ .file → disk.get? place = some entry →
    disk'.get? place = some entry

/-- A way ends at something that is there, or at a name that is free in a folder. -/
def Found.IsOn (disk : Disk) : Found → Prop
  | .entry place => (disk.get? place).isSome
  | .free folder name _ => disk.get? folder = some .folder ∧ disk.get? (folder ++ [name]) = none

section Follow

variable {onLink onLink' : Place → String → List String → Except OsError Found} {found : Found}

/-- A way to a folder is the same where folders and links are. -/
theorem KeepsWays.follow_eq_ok (h : disk.KeepsWays disk')
    (honLink : ∀ folder target rest, onLink folder target rest = .ok (.entry place) →
      onLink' folder target rest = .ok (.entry place))
    (hplace : disk.get? place = some .folder)
    (hfollow : disk.follow true onLink here segments = .ok (.entry place)) :
    disk'.follow true onLink' here segments = .ok (.entry place) := by
  induction segments generalizing here with
  | nil => exact hfollow
  | cons segment rest ih =>
    rw [follow_eq_ok_iff] at hfollow ⊢
    have ih {here : Place} (h : disk.Follows onLink here rest (.entry place)) :=
      follow_eq_ok_iff.mp (ih (follow_eq_ok_iff.mpr h))
    cases hfollow with
    | skip hskip hrest => exact .skip hskip (ih hrest)
    | up hrest => exact .up (ih hrest)
    | enter hname hget hrest => exact .enter hname (h.get?_eq _ _ (by decide) hget) (ih hrest)
    | file _ hget =>
      -- the way would end at the file
      rw [hget] at hplace
      cases hplace
    | link hname hget hlink =>
      exact .link hname (h.get?_eq _ (.link _) (by rintro ⟨⟩) hget) (honLink _ _ _ hlink)

theorem IsTree.follow_isOn (h : disk.IsTree) (hhere : disk.get? here = some .folder)
    (honLink : ∀ folder target rest, disk.get? folder = some .folder →
      onLink folder target rest = .ok found → found.IsOn disk)
    (hfollow : disk.follow true onLink here segments = .ok found) : found.IsOn disk := by
  rw [follow_eq_ok_iff] at hfollow
  -- the way is in a folder before every segment
  induction hfollow with
  | done => exact Option.isSome_of_eq_some hhere
  | skip _ _ ih => exact ih hhere honLink
  | up _ ih => exact ih (h.get?_dropLast hhere) honLink
  | enter _ hget _ ih => exact ih hget honLink
  | free _ hget => exact ⟨hhere, hget⟩
  | file _ hget => exact Option.isSome_of_eq_some hget
  | link _ _ hlink => exact honLink _ _ _ hhere hlink

end Follow

theorem KeepsWays.resolve_eq_ok (h : disk.KeepsWays disk')
    (hplace : disk.get? place = some .folder) {links : Nat}
    (hresolve : disk.resolve true links here segments = .ok (.entry place)) :
    disk'.resolve true links here segments = .ok (.entry place) := by
  induction links generalizing here segments with
  | zero => exact h.follow_eq_ok (fun _ _ _ hlink => by cases hlink) hplace hresolve
  | succ links ih => exact h.follow_eq_ok (fun _ _ _ hlink => ih hlink) hplace hresolve

theorem IsTree.resolve_isOn (h : disk.IsTree) (hhere : disk.get? here = some .folder)
    {links : Nat} {found : Found}
    (hresolve : disk.resolve true links here segments = .ok found) : found.IsOn disk := by
  induction links generalizing here segments with
  | zero => exact h.follow_isOn hhere (fun _ _ _ _ hlink => by cases hlink) hresolve
  | succ links ih =>
    refine h.follow_isOn hhere (fun folder target rest hfolder hlink => ih ?_ hlink) hresolve
    split
    · rfl
    · exact hfolder

theorem of_start (h : disk.start path = .ok (here, way)) :
    '\x00' ∉ path.toList ∧ here = (if isAbsolute path then [] else disk.current) ∧
      way = segmentsOf path := by
  rw [start] at h
  split at h
  next => cases h
  next hnul =>
  split at h
  next => cases h
  next =>
  split at h
  next => cases h
  next =>
  cases h
  exact ⟨mt List.contains_iff_mem.mpr hnul, rfl, rfl⟩

/-- A way starts at the root or in the current folder. -/
theorem IsTree.get?_start (h : disk.IsTree) (hstart : disk.start path = .ok (here, way)) :
    disk.get? here = some .folder := by
  obtain ⟨-, rfl, -⟩ := of_start hstart
  split
  · rfl
  · exact h.current

theorem IsTree.locate_isOn (h : disk.IsTree) {found : Found}
    (hlocate : disk.locate path = .ok found) : found.IsOn disk := by
  obtain ⟨⟨here, way⟩, hstart, hresolve⟩ := Except.bind_eq_ok_iff.mp hlocate
  exact h.resolve_isOn (h.get?_start hstart) hresolve

/-! ## Names at the end of paths -/

/-- The segments of a way without the empty ones at its end. -/
def trimmed (way : List String) : List String :=
  (way.reverse.dropWhile String.isEmpty).reverse

theorem findParent_eq_ok_iff :
    disk.findParent path = .ok (folder, last, slash) ↔
      ∃ here way, disk.start path = .ok (here, way) ∧
        disk.resolve true maxLinks here (trimmed way).dropLast = .ok (.entry folder) ∧
        disk.get? folder = some .folder ∧ last = (trimmed way).getLast? ∧
        slash = decide ((trimmed way).length < way.length) := by
  simp only [findParent, Except.bind_eq_ok_iff, Prod.exists]
  refine exists_congr fun here => exists_congr fun way => and_congr_right fun _ => ?_
  constructor
  · rintro ⟨found, hfound, h⟩
    split at h
    · cases h
    · split at h
      next hfolder => cases h; exact ⟨hfound, hfolder, rfl, rfl⟩
      next => cases h
  · rintro ⟨hresolve, hfolder, rfl, rfl⟩
    refine ⟨_, hresolve, ?_⟩
    simp only [hfolder, if_true]
    rfl

theorem get?_of_findParent (h : disk.findParent path = .ok (folder, last, slash)) :
    disk.get? folder = some .folder := by
  obtain ⟨-, -, -, -, hfolder, -⟩ := findParent_eq_ok_iff.mp h
  exact hfolder

/-- The folder that a path names something in is the same where folders and links are. -/
theorem KeepsWays.findParent_eq_ok (h : disk.KeepsWays disk')
    (hparent : disk.findParent path = .ok (folder, last, slash)) :
    disk'.findParent path = .ok (folder, last, slash) := by
  obtain ⟨here, way, hstart, hresolve, hfolder, hlast, hslash⟩ := findParent_eq_ok_iff.mp hparent
  refine findParent_eq_ok_iff.mpr ⟨here, way, ?_, h.resolve_eq_ok hfolder hresolve,
    h.get?_eq _ _ (by decide) hfolder, hlast, hslash⟩
  rwa [start, h.current_eq]

theorem ordinaryName?_eq_some_iff :
    ordinaryName? last = some name ↔ last = some name ∧ name ≠ "." ∧ name ≠ ".." := by
  cases last with
  | none => exact iff_of_false nofun nofun
  | some n =>
    rw [ordinaryName?]
    split <;> grind

/-- The place that a path names: its last segment, in the folder that the segments before it lead
to. A link at the place is not followed. -/
def namedPlace? (disk : Disk) (path : String) : Option Place :=
  match disk.findParent path with
  | .ok (folder, last, _) => (ordinaryName? last).map fun name => folder ++ [name]
  | .error _ => none

theorem namedPlace?_eq_some_iff :
    disk.namedPlace? path = some place ↔ ∃ folder name slash,
      disk.findParent path = .ok (folder, some name, slash) ∧ (name ≠ "." ∧ name ≠ "..") ∧
      place = folder ++ [name] := by
  rw [namedPlace?]
  constructor
  · intro h
    split at h
    next folder last slash hparent =>
      obtain ⟨name, hname, rfl⟩ := Option.map_eq_some_iff.mp h
      obtain ⟨rfl, hordinary⟩ := ordinaryName?_eq_some_iff.mp hname
      exact ⟨folder, name, slash, hparent, hordinary, rfl⟩
    next => cases h
  · rintro ⟨folder, name, slash, hparent, hordinary, rfl⟩
    simp only [hparent, ordinaryName?_eq_some_iff.mpr ⟨rfl, hordinary⟩, Option.map_some]

theorem ne_nil_of_namedPlace? (h : disk.namedPlace? path = some place) : place ≠ [] := by
  obtain ⟨folder, name, -, -, -, rfl⟩ := namedPlace?_eq_some_iff.mp h
  exact concat_ne_nil _ _

theorem KeepsWays.namedPlace?_eq_some (h : disk.KeepsWays disk')
    (hplace : disk.namedPlace? path = some place) : disk'.namedPlace? path = some place := by
  obtain ⟨folder, name, slash, hparent, hname⟩ := namedPlace?_eq_some_iff.mp hplace
  exact namedPlace?_eq_some_iff.mpr ⟨folder, name, slash, h.findParent_eq_ok hparent, hname⟩

theorem exists_trimmed (way : List String) :
    ∃ empties, (∀ segment ∈ empties, segment = "") ∧ way = trimmed way ++ empties := by
  refine ⟨(way.reverse.takeWhile String.isEmpty).reverse, fun segment hsegment => ?_, ?_⟩
  · exact String.isEmpty_iff.mp (List.mem_takeWhile_imp (List.mem_reverse.mp hsegment))
  · rw [trimmed, ← List.reverse_append, List.takeWhile_append_dropWhile, List.reverse_reverse]

theorem trimmed_concat (before : List String) (hname : name ≠ "") :
    trimmed (before ++ [name]) = before ++ [name] := by
  rw [trimmed, List.reverse_concat, List.dropWhile_cons_of_neg (mt String.isEmpty_iff.mp hname),
    List.reverse_cons, List.reverse_reverse]

theorem ne_empty_of_getLast?_trimmed (h : (trimmed way).getLast? = some name) : name ≠ "" := by
  have hhead := List.head?_dropWhile_not String.isEmpty way.reverse
  rw [trimmed, List.getLast?_reverse] at h
  rw [h] at hhead
  rintro rfl
  exact Bool.noConfusion hhead

/-- What a path names in a folder is a segment of its own. -/
theorem isSegment_of_findParent
    (hparent : disk.findParent path = .ok (folder, some name, slash))
    (hname : name ≠ "." ∧ name ≠ "..") (hsize : name.utf8ByteSize ≤ maxName) : IsSegment name := by
  obtain ⟨here, way, hstart, -, -, hlast, -⟩ := findParent_eq_ok_iff.mp hparent
  obtain ⟨hnul, -, hway⟩ := of_start hstart
  obtain ⟨empties, -, hsplit⟩ := exists_trimmed way
  have hmem : name ∈ way := by
    rw [hsplit]
    exact List.mem_append_left _ (List.mem_of_getLast? hlast.symm)
  rw [hway, segmentsOf, List.mem_map] at hmem
  obtain ⟨cs, hcs, rfl⟩ := hmem
  refine ⟨RelPath.isOrdinary_iff.mpr ⟨?_, ?_, ?_⟩, ?_, ?_, hsize⟩
  · exact mt String.toList_eq_nil_iff.mp (ne_empty_of_getLast?_trimmed hlast.symm)
  · exact fun h => hname.1 (String.toList_injective h)
  · exact fun h => hname.2 (String.toList_injective h)
  · rw [String.toList_ofList]
    exact slash_not_mem_of_mem_segments hcs
  · rw [String.toList_ofList]
    intro hmem
    rw [← joinSegments_segments path.toList, mem_joinSegments (by decide)] at hnul
    exact hnul ⟨cs, hcs, hmem⟩

/-- A path leads to what it names in a folder, unless that is a link. -/
theorem locate_of_findParent (hparent : disk.findParent path = .ok (folder, some name, false))
    (hname : name ≠ "." ∧ name ≠ "..") (hsize : name.utf8ByteSize ≤ maxName)
    (hentry : disk.get? (folder ++ [name]) = some entry) (hlink : ∀ target, entry ≠ .link target) :
    disk.locate path = .ok (.entry (folder ++ [name])) := by
  obtain ⟨here, way, hstart, hresolve, hfolder, hlast, hslash⟩ := findParent_eq_ok_iff.mp hparent
  -- no slash follows the name, so it is the last segment of the way
  have hsplit : way = (trimmed way).dropLast ++ [name] := by
    obtain ⟨empties, -, hway⟩ := exists_trimmed way
    have hlength := congrArg List.length hway
    rw [List.length_append] at hlength
    have hle := Nat.not_lt.mp (of_decide_eq_false hslash.symm)
    obtain rfl : empties = [] := List.length_eq_zero_iff.mp (by omega)
    rw [List.append_nil] at hway
    rw [List.dropLast_append_getLast? _ hlast.symm]
    exact hway
  have hsegment := isSegment_of_findParent hparent hname hsize
  have hend : disk.resolve true maxLinks here way = .ok (.entry (folder ++ [name])) := by
    rw [← List.append_nil (trimmed way).dropLast] at hresolve
    rw [hsplit]
    exact resolve_append_name hsegment hfolder hentry hlink (.inl rfl) hresolve
  exact Except.bind_eq_ok_iff.mpr ⟨_, hstart, hend⟩

end EdgeBundle.Disk
