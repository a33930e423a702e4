import EdgeBundle.Path.Native
import EdgeBundle.Proofs.Path.Segments

/-!
# Components of paths

A path as the user writes it means what its components say. A name that is joined to a path is one
more component, and what a path is relative to a folder is read off the components of both.

## Main definitions

* `NativePath.lead`: what a path starts with, before its segments.

## Main statements

* `NativePath.components_eq`: components are what a path starts with and what its segments mean.
* `NativePath.components_join`: a name that is joined to a path is its last component.
* `RelPath.relativeTo_of_components`: the path of a file relative to a folder.
-/

namespace EdgeBundle

namespace NativePath

variable {path base name rest : List Char}

/-! ## Components and segments -/

/-- What a path starts with: the root, the current folder, or nothing of its own. -/
def lead (path : List Char) : List Component :=
  if path.head? = some '/' then [.root]
  else if (segments path).head? = some ['.'] then [.current]
  else []

theorem components_eq (path : List Char) :
    components path = lead path ++ (segments path).filterMap Component.ofSegment? := by
  rw [lead]
  unfold components
  split
  next => rfl
  next => rw [List.head?_cons, if_pos rfl, List.singleton_append]
  next hne hroot =>
    have hhead : path.head? ≠ some '/' := fun h => by
      obtain ⟨rest, rfl⟩ := List.head?_eq_some_iff.mp h
      exact hroot rest rfl
    rw [if_neg hhead]
    split
    next rest hsegments =>
      rw [hsegments, List.head?_cons, if_pos rfl, List.filterMap_cons_none (by decide)]
      rfl
    next hsegments =>
      have hcurrent : (segments path).head? ≠ some ['.'] := fun h => by
        obtain ⟨rest, hrest⟩ := List.head?_eq_some_iff.mp h
        exact hsegments rest hrest
      rw [if_neg hcurrent, List.nil_append]

theorem ofSegment?_of_ordinary (h : RelPath.isOrdinary name = true) :
    Component.ofSegment? name = some (.name name) := by
  obtain ⟨hempty, hdot, hup⟩ := RelPath.isOrdinary_iff.mp h
  rw [Component.ofSegment?, if_neg (not_or.mpr ⟨hempty, hdot⟩), if_neg hup]

/-- What comes after a slash adds what its segments mean. -/
theorem components_append_slash (base rest : List Char) :
    components (base ++ '/' :: rest) =
      (if base = [] then [.root] else components base) ++
        (segments rest).filterMap Component.ofSegment? := by
  rw [components_eq, segments_append, List.filterMap_append, ← List.append_assoc]
  congr 1
  split
  next hbase => rw [hbase]; rfl
  next hbase =>
    rw [components_eq base, lead, lead, segments_append, List.head?_append_of_ne_nil _ hbase,
      List.head?_append_of_ne_nil _ (segments_ne_nil base)]

/-- A name is one component. -/
theorem filterMap_segments_name (hname : RelPath.isOrdinary name = true) (hslash : '/' ∉ name) :
    (segments name).filterMap Component.ofSegment? = [.name name] := by
  rw [segments_of_slash_not_mem hslash, List.filterMap_cons_some (ofSegment?_of_ordinary hname)]
  rfl

/-- A name alone is one component. -/
theorem components_name (hname : RelPath.isOrdinary name = true) (hslash : '/' ∉ name) :
    components name = [.name name] := by
  have hroot : name.head? ≠ some '/' := fun h => hslash (List.mem_of_head? h)
  have hcurrent : (segments name).head? ≠ some ['.'] := by
    rw [segments_of_slash_not_mem hslash, List.head?_cons, ne_eq, Option.some_inj]
    exact (RelPath.isOrdinary_iff.mp hname).2.1
  rw [components_eq, lead, if_neg hroot, if_neg hcurrent, filterMap_segments_name hname hslash]
  rfl

/-- A name is put after a path, with a slash between them unless the path ends with one. -/
theorem join_of_slash_not_mem (base : List Char) (hslash : '/' ∉ name) :
    join base name =
      if base = [] ∨ base.getLast? = some '/' then base ++ name else base ++ '/' :: name := by
  have hrelative : ¬ isAbsolute name = true := fun h =>
    hslash (List.mem_of_head? (beq_iff_eq.mp h))
  rw [join, if_neg hrelative]

/-- A name that is joined to a path is its last component. -/
theorem components_join (base : List Char) (hname : RelPath.isOrdinary name = true)
    (hslash : '/' ∉ name) : components (join base name) = components base ++ [.name name] := by
  have hsegments := filterMap_segments_name hname hslash
  rw [join_of_slash_not_mem base hslash]
  split
  next h =>
    rcases h with rfl | hlast
    · exact components_name hname hslash
    -- the slash at the end means nothing else than the one that is put in
    · obtain ⟨before, rfl⟩ := List.getLast?_eq_some_iff.mp hlast
      rw [List.append_assoc, List.singleton_append, components_append_slash,
        components_append_slash, hsegments]
      exact congrArg (· ++ _) (List.append_nil _).symm
  next h => rw [components_append_slash, if_neg (not_or.mp h).1, hsegments]

/-- Names in components name something and are single segments. -/
theorem isOrdinary_of_name_mem (h : Component.name name ∈ components path) :
    RelPath.isOrdinary name = true ∧ '/' ∉ name := by
  rw [components_eq, List.mem_append] at h
  rcases h with h | h
  -- neither the root nor the current folder is a name
  · rw [lead] at h
    split at h
    · cases List.mem_singleton.mp h
    split at h
    · cases List.mem_singleton.mp h
    · cases h
  · obtain ⟨s, hs, hname⟩ := List.mem_filterMap.mp h
    rw [Component.ofSegment?] at hname
    split at hname
    next => cases hname
    next hskip =>
      split at hname
      next => cases hname
      next hup =>
        obtain rfl := Component.name.inj (Option.some.inj hname)
        rw [not_or] at hskip
        exact ⟨RelPath.isOrdinary_iff.mpr ⟨hskip.1, hskip.2, hup⟩,
          slash_not_mem_of_mem_segments hs⟩

end NativePath

/-! ## Relative paths -/

namespace RelPath

variable {root file : String} {p : RelPath}

theorem below?_eq_some_iff {root file rest : List NativePath.Component} :
    below? root file = some rest ↔ file = root ++ rest := by
  rw [below?]
  split
  next h =>
    obtain ⟨rest', rfl⟩ := List.isPrefixOf_iff_prefix.mp h
    rw [List.drop_left, Option.some_inj, List.append_cancel_left_eq]
  next h =>
    refine iff_of_false (by simp) ?_
    rintro rfl
    exact h (List.isPrefixOf_iff_prefix.mpr (List.prefix_append root rest))

theorem mapM_nameOf?_eq_some_iff {rest : List NativePath.Component} {names : List (List Char)} :
    rest.mapM nameOf? = some names ↔ rest = names.map .name := by
  induction rest generalizing names with
  | nil => cases names <;> simp
  | cons c rest ih =>
    rw [List.mapM_cons]
    cases c with
    | name n =>
      -- a name is kept, and the names after it are those of the rest
      cases names with
      | nil => cases rest.mapM nameOf? <;> simp [nameOf?]
      | cons m names =>
        rw [List.map_cons, List.cons.injEq, ← ih]
        cases rest.mapM nameOf? <;> simp [nameOf?]
    | _ => cases names <;> simp [nameOf?]

/-- A file in a folder is known by the names on the way to it, with slashes between them. -/
theorem relativeTo_of_components {names : List (List Char)}
    (h : NativePath.components file.toList =
      NativePath.components root.toList ++ names.map .name) :
    relativeTo root file = ofText (String.ofList (joinSegments names)) := by
  have hnames : (names.map NativePath.Component.name).mapM nameOf? = some names :=
    mapM_nameOf?_eq_some_iff.mpr rfl
  simp only [relativeTo, below?_eq_some_iff.mpr h, Option.bind_eq_bind, Option.bind_some, hnames]

theorem exists_names_of_relativeTo (h : relativeTo root file = .ok p) :
    ∃ names : List (List Char), NativePath.components file.toList =
      NativePath.components root.toList ++ names.map .name := by
  rw [relativeTo] at h
  split at h
  next => cases h
  next names hfound =>
    obtain ⟨rest, hrest, hnames⟩ := Option.bind_eq_some_iff.mp hfound
    rw [below?_eq_some_iff.mp hrest, mapM_nameOf?_eq_some_iff.mp hnames]
    exact ⟨names, rfl⟩

end RelPath

end EdgeBundle
