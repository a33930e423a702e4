import EdgeBundle.Proofs.Files.DiskChange
import EdgeBundle.Proofs.Files.Keeps
import EdgeBundle.Proofs.Path.Parent

/-!
# Places of paths

On a disk without links the place that a path leads to can be read off the path, and operations act
there. The folders around a file lie on the way to it, except that steps up may lead back.

## Main definitions

* `Disk.LinkFree`: there is no link on a disk.
* `Disk.placeOf`: the place that a path leads to.

## Main statements

* `Disk.LinkFree.eq_placeOf`: the place that a path names.
* `Disk.Receives.eq_placeOf`: the place that a content goes to.
* `Disk.placeOf_eq`: the place of a path is told by its components.
* `Disk.exists_placeOf_of_mem_foldersAround`: the places of the folders around a file.
-/

namespace EdgeBundle.Disk

variable {disk : Disk} {place here : Place} {name path : String} {way : List String}

/-- There is no link on a disk. -/
def LinkFree (disk : Disk) : Prop :=
  ∀ place target, disk.get? place ≠ some (.link target)

theorem linkFree_of_entries (h : ∀ e ∈ disk.entries, e.2.kind ≠ .link) : disk.LinkFree := by
  intro place target hlink
  have hplace : place ≠ [] := by
    rintro rfl
    cases hlink
  exact h _ (mem_entries_of_get? hplace hlink) rfl

/-- The place that a segment leads to from a folder where there are no links. -/
def toward (here : Place) (segment : String) : Place :=
  if segment = "" ∨ segment = "." then here
  else if segment = ".." then here.dropLast
  else here ++ [segment]

/-- The place that a path leads to where there are no links. -/
def placeOf (disk : Disk) (path : String) : Place :=
  (segmentsOf path).foldl toward (if isAbsolute path then [] else disk.current)

/-- The place of what is found at the end of a way, or of the name that is free there. -/
def Found.reached : Found → Place
  | .entry place => place
  | .free folder name _ => folder ++ [name]

theorem foldl_toward_of_empty {empties : List String} (h : ∀ segment ∈ empties, segment = "")
    (here : Place) : empties.foldl toward here = here := by
  induction empties with
  | nil => rfl
  | cons segment empties ih =>
    rw [List.forall_mem_cons] at h
    rw [List.foldl_cons, toward, if_pos (.inl h.1)]
    exact ih h.2

theorem NamesEntry.toward_eq {segment : String} (h : NamesEntry segment) (here : Place) :
    toward here segment = here ++ [segment] := by
  rw [toward, if_neg h.ne_skip, if_neg h.ne_up]

section Follow

variable {onLink : Place → String → List String → Except OsError Found} {found : Found}

/-- Where there are no links a way leads to the place that its segments say. -/
theorem LinkFree.follow_place (h : disk.LinkFree)
    (hfollow : disk.follow true onLink here way = .ok found) :
    found.reached = way.foldl toward here := by
  rw [follow_eq_ok_iff] at hfollow
  induction hfollow with
  | done => rfl
  | skip hskip _ ih =>
    rw [List.foldl_cons, toward, if_pos hskip]
    exact ih
  | up _ ih =>
    rw [List.foldl_cons, toward, if_neg (by decide), if_pos rfl]
    exact ih
  | enter hname _ _ ih =>
    rw [List.foldl_cons, hname.toward_eq]
    exact ih
  | free hname _ hempty => rw [List.foldl_cons, hname.toward_eq, foldl_toward_of_empty hempty]; rfl
  | file hname _ hrest => rw [List.foldl_cons, hname.toward_eq, hrest]; rfl
  | link _ hget => exact absurd hget (h _ _)

/-- A way to a name goes through the folder that the name is in. -/
theorem LinkFree.follow_concat (h : disk.LinkFree) (htree : disk.IsTree)
    (hname : name ≠ "" ∧ name ≠ "." ∧ name ≠ "..") (hhere : disk.get? here = some .folder)
    (hfollow : disk.follow true onLink here (way ++ [name]) = .ok found) :
    ∃ folder, disk.follow true onLink here way = .ok (.entry folder) ∧
      disk.get? folder = some .folder := by
  induction way generalizing here with
  | nil => exact ⟨here, rfl, hhere⟩
  | cons segment rest ih =>
    rw [follow_eq_ok_iff, List.cons_append] at hfollow
    simp only [follow_eq_ok_iff] at ih ⊢
    cases hfollow with
    | skip hskip hrest =>
      obtain ⟨folder, hway, hfolder⟩ := ih hhere hrest
      exact ⟨folder, .skip hskip hway, hfolder⟩
    | up hrest =>
      obtain ⟨folder, hway, hfolder⟩ := ih (htree.get?_dropLast hhere) hrest
      exact ⟨folder, .up hway, hfolder⟩
    | enter hentry hget hrest =>
      obtain ⟨folder, hway, hfolder⟩ := ih hget hrest
      exact ⟨folder, .enter hentry hget hway, hfolder⟩
    -- only empty segments may follow a name that is free
    | free _ _ hempty => exact absurd (hempty name List.mem_concat_self) hname.1
    | file _ _ hrest => exact absurd hrest (concat_ne_nil _ _)
    | link _ hget => exact absurd hget (h _ _)

end Follow

theorem LinkFree.resolve_place (h : disk.LinkFree) {links : Nat} {found : Found}
    (hresolve : disk.resolve true links here way = .ok found) :
    found.reached = way.foldl toward here := by
  cases links with
  | zero => exact h.follow_place hresolve
  | succ links => exact h.follow_place hresolve

theorem LinkFree.resolve_concat (h : disk.LinkFree) (htree : disk.IsTree)
    (hname : name ≠ "" ∧ name ≠ "." ∧ name ≠ "..") (hhere : disk.get? here = some .folder)
    {links : Nat} {found : Found}
    (hresolve : disk.resolve true links here (way ++ [name]) = .ok found) :
    ∃ folder, disk.resolve true links here way = .ok (.entry folder) ∧
      disk.get? folder = some .folder := by
  cases links with
  | zero => exact h.follow_concat htree hname hhere hresolve
  | succ links => exact h.follow_concat htree hname hhere hresolve

/-- A path names the place that it leads to. -/
theorem LinkFree.eq_placeOf (h : disk.LinkFree) (hplace : disk.namedPlace? path = some place) :
    place = disk.placeOf path := by
  obtain ⟨folder, name, slash, hparent, hname, rfl⟩ := namedPlace?_eq_some_iff.mp hplace
  obtain ⟨here, way, hstart, hresolve, -, hlast, -⟩ := findParent_eq_ok_iff.mp hparent
  obtain ⟨-, rfl, hway⟩ := of_start hstart
  obtain ⟨empties, hempties, hsplit⟩ := exists_trimmed way
  have hfolder := h.resolve_place hresolve
  rw [Found.reached] at hfolder
  rw [placeOf, ← hway, hsplit, List.foldl_append, foldl_toward_of_empty hempties,
    ← List.dropLast_append_getLast? _ hlast.symm, List.foldl_append, ← hfolder, List.foldl_cons,
    List.foldl_nil, toward, if_neg (not_or.mpr ⟨ne_empty_of_getLast?_trimmed hlast.symm, hname.1⟩),
    if_neg hname.2]

/-- A content that is written to a path goes to the place that the path leads to. -/
theorem Receives.eq_placeOf (h : disk.Receives path place) (hlinks : disk.LinkFree) :
    place = disk.placeOf path := by
  have hlocate {found : Found} (hfound : disk.locate path = .ok found) :
      found.reached = disk.placeOf path := by
    obtain ⟨⟨here, way⟩, hstart, hresolve⟩ := Except.bind_eq_ok_iff.mp hfound
    obtain ⟨-, rfl, rfl⟩ := of_start hstart
    exact hlinks.resolve_place hresolve
  cases h with
  | file h => exact hlocate h
  | free h => exact hlocate h

/-! ## Places of components -/

/-- The place that a component leads to from a folder where there are no links. -/
def stride (here : Place) : NativePath.Component → Place
  | .root => []
  | .current => here
  | .parent => here.dropLast
  | .name n => here ++ [String.ofList n]

theorem foldl_toward_map (pieces : List (List Char)) (here : Place) :
    (pieces.map String.ofList).foldl toward here =
      (pieces.filterMap NativePath.Component.ofSegment?).foldl stride here := by
  induction pieces generalizing here with
  | nil => rfl
  | cons piece pieces ih =>
    have hskip : String.ofList piece = "" ∨ String.ofList piece = "." ↔
        piece = [] ∨ piece = ['.'] := or_congr String.ofList_inj String.ofList_inj
    have hup : String.ofList piece = ".." ↔ piece = ['.', '.'] := String.ofList_inj
    rw [List.map_cons, List.foldl_cons, List.filterMap_cons, NativePath.Component.ofSegment?,
      toward]
    simp only [hskip, hup]
    split_ifs
    · exact ih _
    · exact ih _
    · exact ih _

/-- The place of a path is told by its components. -/
theorem placeOf_eq (disk : Disk) (path : String) :
    disk.placeOf path = (NativePath.components path.toList).foldl stride disk.current := by
  rw [NativePath.components_eq, List.foldl_append, placeOf, segmentsOf, foldl_toward_map,
    NativePath.lead, isAbsolute, NativePath.isAbsolute]
  simp only [beq_iff_eq]
  split_ifs <;> rfl

/-! ## Folders around a file -/

/-- Names lead on from a folder. -/
theorem exists_foldl_stride_eq {cs : List NativePath.Component}
    (h : ∀ c ∈ cs, ∃ name, c = .name name) (here : Place) :
    ∃ rest, rest.length = cs.length ∧ cs.foldl stride here = here ++ rest := by
  induction cs generalizing here with
  | nil => exact ⟨[], rfl, (List.append_nil _).symm⟩
  | cons c cs ih =>
    rw [List.forall_mem_cons] at h
    obtain ⟨⟨name, rfl⟩, h⟩ := h
    obtain ⟨rest, hlength, hrest⟩ := ih h (here ++ [String.ofList name])
    refine ⟨String.ofList name :: rest, by rw [List.length_cons, List.length_cons, hlength], ?_⟩
    rw [List.foldl_cons, stride, hrest, List.append_assoc, List.singleton_append]

theorem components_of_mem_foldersUpFrom {fuel : Nat} {cs : List Char} {folder : String}
    (h : folder ∈ foldersUpFrom fuel cs) :
    NativePath.components folder.toList <+: NativePath.components cs ∧
      NativePath.components folder.toList ≠ [] := by
  induction fuel generalizing cs with
  | zero => cases h
  | succ fuel ih =>
    rw [foldersUpFrom] at h
    split at h
    next => cases h
    next above habove =>
      rcases List.mem_cons.mp h with rfl | h
      · rw [String.toList_ofList]
        refine ⟨List.prefix_rfl, fun hnil => ?_⟩
        rw [NativePath.parent?, hnil] at habove
        cases habove
      · obtain ⟨hbegin, hne⟩ := ih h
        rw [NativePath.components_of_parent? habove] at hbegin
        exact ⟨hbegin.trans (List.dropLast_prefix _), hne⟩

theorem components_of_mem_foldersAround {folder : String} (h : folder ∈ foldersAround path) :
    NativePath.components folder.toList <+: (NativePath.components path.toList).dropLast ∧
      NativePath.components folder.toList ≠ [] := by
  rw [foldersAround] at h
  split at h
  next => cases h
  next => cases h
  next above _ habove =>
    rw [← NativePath.components_of_parent? habove]
    exact components_of_mem_foldersUpFrom h

/-- A path without steps up goes on from each of the folders around it. -/
theorem exists_placeOf_of_mem_foldersAround (disk : Disk) {folder : String}
    (hup : ".." ∉ segmentsOf path) (h : folder ∈ foldersAround path) :
    ∃ rest, rest ≠ [] ∧ disk.placeOf path = disk.placeOf folder ++ rest := by
  obtain ⟨⟨rest, hrest⟩, hne⟩ := components_of_mem_foldersAround h
  rcases List.eq_nil_or_concat (NativePath.components path.toList) with hnil | ⟨before, last, hpath⟩
  · rw [hnil, List.dropLast_nil] at hrest
    exact absurd (List.append_eq_nil_iff.mp hrest).1 hne
  rw [hpath, List.concat_eq_append, List.dropLast_concat] at hrest
  rw [List.concat_eq_append, ← hrest, List.append_assoc] at hpath
  -- what comes after the folder are names
  have hnames : ∀ c ∈ rest ++ [last], ∃ name, c = .name name := by
    intro c hc
    have htail : c ∈ (NativePath.components path.toList).tail := by
      rw [hpath, List.tail_append_of_ne_nil hne]
      exact List.mem_append_right _ hc
    refine (NativePath.eq_parent_or_name_of_mem_tail htail).resolve_left ?_
    rintro rfl
    exact hup (List.mem_map.mpr
      ⟨_, NativePath.parent_mem_components (List.mem_of_mem_tail htail), rfl⟩)
  obtain ⟨names, hlength, hnames⟩ := exists_foldl_stride_eq hnames (disk.placeOf folder)
  refine ⟨names, ?_, ?_⟩
  · rintro rfl
    rw [List.length_append] at hlength
    cases hlength
  · rw [placeOf_eq, hpath, List.foldl_append, ← placeOf_eq, hnames]

end EdgeBundle.Disk
