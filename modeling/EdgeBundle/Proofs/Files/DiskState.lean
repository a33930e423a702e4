import EdgeBundle.Proofs.Files.DiskTree

/-!
# What stands on a disk

What stands at each place after an entry is put there, is taken away or is moved. A disk stays a
tree as long as entries are put into folders and no folder is replaced.

## Main definitions

* `Disk.IsTree`: whatever stands on a disk stands in a folder.

## Main statements

* `Disk.get?_set`, `Disk.get?_erase`, `Disk.get?_moveEntry`: what stands at a place after a change.
* `Disk.IsTree.set`: one more entry in a folder.
-/

namespace EdgeBundle.Disk

variable {disk : Disk} {place folder old new : Place} {entry : DiskEntry} {name : String}

/-! ## What stands at places -/

theorem concat_ne_nil (folder : Place) (name : String) : folder ++ [name] ≠ [] :=
  List.append_ne_nil_of_right_ne_nil _ (List.cons_ne_nil _ _)

theorem get?_of_ne_nil (h : place ≠ []) : disk.get? place = disk.entries.lookup place :=
  if_neg (mt List.isEmpty_iff.mp h)

theorem lookup_insertEntry (place : Place) (entry : DiskEntry)
    (entries : List (Place × DiskEntry)) (other : Place) :
    (insertEntry place entry entries).lookup other =
      if other = place then some entry else entries.lookup other := by
  induction entries with
  | nil =>
    rw [insertEntry, List.lookup_cons, List.lookup_nil]
    grind
  | cons e rest ih =>
    rw [insertEntry]
    split <;> grind

theorem get?_set (hplace : place ≠ []) (other : Place) :
    (disk.set place entry).get? other = if other = place then some entry else disk.get? other := by
  by_cases hother : other = []
  · subst hother
    rw [if_neg hplace.symm]
    rfl
  · rw [get?_of_ne_nil hother, get?_of_ne_nil hother, set, lookup_insertEntry]

theorem lookup_filter_ne (place : Place) (entries : List (Place × DiskEntry)) (other : Place) :
    (entries.filter fun e => e.1 != place).lookup other =
      if other = place then none else entries.lookup other := by
  induction entries with
  | nil => rw [List.filter_nil, List.lookup_nil, ite_self]
  | cons e rest ih => grind

theorem get?_erase (hplace : place ≠ []) (other : Place) :
    (disk.erase place).get? other = if other = place then none else disk.get? other := by
  by_cases hother : other = []
  · subst hother
    rw [if_neg hplace.symm]
    rfl
  · rw [get?_of_ne_nil hother, get?_of_ne_nil hother, erase, lookup_filter_ne]

theorem lookup_map_move (hne : old ≠ new) (entries : List (Place × DiskEntry)) (other : Place) :
    ((entries.filter fun e => e.1 != new).map fun e =>
        if e.1 = old then (new, e.2) else e).lookup other =
      if other = new then entries.lookup old else if other = old then none
        else entries.lookup other := by
  induction entries with
  | nil => simp only [List.filter_nil, List.map_nil, List.lookup_nil, ite_self]
  | cons e rest ih => grind

/-! ## Trees -/

/-- Whatever stands on a disk stands in a folder, and the current folder is one. -/
structure IsTree (disk : Disk) : Prop where
  /-- Every entry stands in a folder. -/
  inFolder : ∀ e ∈ disk.entries, disk.get? e.1.dropLast = some .folder
  /-- There is a folder at the current place. -/
  current : disk.get? disk.current = some .folder

namespace IsTree

instance (disk : Disk) : Decidable disk.IsTree :=
  decidable_of_iff ((∀ e ∈ disk.entries, disk.get? e.1.dropLast = some .folder) ∧
      disk.get? disk.current = some .folder)
    ⟨fun ⟨h, hcurrent⟩ => ⟨h, hcurrent⟩, fun ⟨h, hcurrent⟩ => ⟨h, hcurrent⟩⟩

theorem get?_folder (h : disk.IsTree) (hentry : disk.get? (folder ++ [name]) = some entry) :
    disk.get? folder = some .folder := by
  have hfolder := h.inFolder _ (mem_entries_of_get? (concat_ne_nil _ _) hentry)
  rwa [List.dropLast_concat] at hfolder

theorem get?_dropLast (h : disk.IsTree) (hplace : disk.get? place = some .folder) :
    disk.get? place.dropLast = some .folder := by
  rcases List.eq_nil_or_concat place with rfl | ⟨folder, name, rfl⟩
  · exact hplace
  · rw [List.concat_eq_append] at hplace ⊢
    rw [List.dropLast_concat]
    exact h.get?_folder hplace

/-- Nothing stands below what is no folder. -/
theorem eq_nil_of_isSome (h : disk.IsTree) (hplace : disk.get? place ≠ some .folder)
    {rest : List String} (hrest : (disk.get? (place ++ rest)).isSome) : rest = [] := by
  induction rest using List.reverseRecOn with
  | nil => rfl
  | append_singleton rest name ih =>
    obtain ⟨entry, hentry⟩ := Option.isSome_iff_exists.mp hrest
    rw [← List.append_assoc] at hentry
    have hfolder := h.get?_folder hentry
    obtain rfl := ih (by rw [hfolder]; rfl)
    rw [List.append_nil] at hfolder
    exact absurd hfolder hplace

theorem eq_of_isPrefix (h : disk.IsTree) (hplace : disk.get? place ≠ some .folder)
    {e : Place × DiskEntry} (he : e ∈ disk.entries) (hbegin : place <+: e.1) : e.1 = place := by
  obtain ⟨rest, hrest⟩ := hbegin
  have hfolder := h.inFolder e he
  rcases List.eq_nil_or_concat rest with rfl | ⟨rest, name, rfl⟩
  · rw [← hrest, List.append_nil]
  · rw [← hrest, List.concat_eq_append, ← List.append_assoc, List.dropLast_concat] at hfolder
    obtain rfl := h.eq_nil_of_isSome hplace (by rw [hfolder]; rfl)
    rw [List.append_nil] at hfolder
    exact absurd hfolder hplace

/-- A disk stays a tree with one more entry in a folder, or with another one in the place of what is
no folder. -/
theorem set (h : disk.IsTree) (hfolder : disk.get? folder = some .folder)
    (hplace : disk.get? (folder ++ [name]) ≠ some .folder) (entry : DiskEntry) :
    (disk.set (folder ++ [name]) entry).IsTree := by
  have hkeeps {other : Place} (hother : disk.get? other = some .folder) :
      (disk.set (folder ++ [name]) entry).get? other = some .folder := by
    rw [get?_set (concat_ne_nil _ _), if_neg, hother]
    rintro rfl
    exact hplace hother
  refine ⟨fun e he => ?_, hkeeps h.current⟩
  have hmem : ∀ entries : List (Place × DiskEntry),
      e ∈ insertEntry (folder ++ [name]) entry entries →
        e = (folder ++ [name], entry) ∨ e ∈ entries := by
    intro entries
    induction entries with
    | nil => exact fun h => .inl (List.mem_singleton.mp h)
    | cons e rest ih => grind [insertEntry]
  rcases hmem _ he with rfl | he
  · rw [List.dropLast_concat]
    exact hkeeps hfolder
  · exact hkeeps (h.inFolder e he)

end IsTree

/-- What is moved stands at its new place and no longer at the old one, if it is no folder. -/
theorem get?_moveEntry (h : disk.IsTree) (hold : disk.get? old = some entry)
    (hentry : entry ≠ .folder) (hne : old ≠ new) (hnew : new ≠ []) (other : Place) :
    (disk.moveEntry old new).get? other =
      if other = new then some entry else if other = old then none else disk.get? other := by
  have hfolder : disk.get? old ≠ some .folder :=
    fun h => hentry (Option.some.inj (hold.symm.trans h))
  have hold_ne : old ≠ [] := by
    rintro rfl
    exact hfolder rfl
  by_cases hother : other = []
  · subst hother
    rw [if_neg hnew.symm, if_neg hold_ne.symm]
    rfl
  -- nothing stands below what is moved, so it is the only entry that gets another place
  have hentries : (disk.moveEntry old new).entries =
      (disk.entries.filter fun e => e.1 != new).map fun e =>
        if e.1 = old then (new, e.2) else e := by
    refine List.map_congr_left fun e he => ?_
    by_cases heq : e.1 = old
    · rw [if_pos heq, heq, if_pos (List.isPrefixOf_iff_prefix.mpr List.prefix_rfl),
        List.drop_length, List.append_nil]
    · rw [if_neg heq, if_neg]
      exact fun hbegin => heq (h.eq_of_isPrefix hfolder (List.mem_filter.mp he).1
        (List.isPrefixOf_iff_prefix.mp hbegin))
  rw [get?_of_ne_nil hother, get?_of_ne_nil hother, hentries, lookup_map_move hne,
    ← get?_of_ne_nil hold_ne, hold]

end EdgeBundle.Disk
