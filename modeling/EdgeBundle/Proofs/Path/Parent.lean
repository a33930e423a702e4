import EdgeBundle.Proofs.Path.Native
import Mathlib.Data.List.TakeWhile

/-!
# Parents of paths

The parent of a path has its components without the last one, whatever slashes and dots are at the
ends of both.

## Main statements

* `NativePath.components_trimEnd`: what is dropped from the end of a path means nothing.
* `NativePath.components_of_parent?`: the components of a parent.
-/

namespace EdgeBundle.NativePath

variable {path above : List Char}

theorem components_slash (base : List Char) :
    components (base ++ ['/']) = if base = [] then [.root] else components base := by
  rw [components_append_slash]
  exact List.append_nil _

/-- What is dropped from the end of a path means nothing. -/
theorem components_trimEnd_go (cs : List Char) :
    components (trimEnd.go cs) = components cs.reverse := by
  fun_induction trimEnd.go cs with
  | case1 => rfl
  | case2 => rfl
  | case3 cs hcs ih =>
    rw [ih, List.reverse_cons, components_slash, if_neg (mt List.reverse_eq_nil_iff.mp hcs)]
  | case4 cs ih =>
    rw [ih, List.reverse_cons, List.reverse_cons, List.reverse_cons, List.append_assoc,
      List.singleton_append, components_append_slash, components_append_slash]
    rfl
  | case5 => rfl

theorem components_trimEnd (path : List Char) : components (trimEnd path) = components path := by
  rw [trimEnd, components_trimEnd_go, List.reverse_reverse]

/-- A path that is trimmed ends in a segment with a meaning, unless it is the root. -/
theorem trimEnd_go_ends (cs : List Char) :
    trimEnd.go cs = [] ∨ trimEnd.go cs = ['/'] ∨
      ((trimEnd.go cs).getLast? ≠ some '/' ∧ ¬ ['/', '.'] <:+ trimEnd.go cs) := by
  fun_induction trimEnd.go cs with
  | case1 => exact .inl rfl
  | case2 => exact .inr (.inl rfl)
  | case3 cs hcs ih => exact ih
  | case4 cs ih => exact ih
  | case5 cs hempty hroot hslash hdot =>
    refine .inr (.inr ⟨fun h => ?_, fun h => ?_⟩)
    · rw [List.getLast?_reverse] at h
      obtain ⟨rest, rfl⟩ := List.head?_eq_some_iff.mp h
      exact hslash rest rfl
    · obtain ⟨before, hbefore⟩ := h
      have hcs := congrArg List.reverse hbefore
      rw [List.reverse_reverse, List.reverse_append] at hcs
      exact hdot _ hcs.symm

/-- A text without slashes has at most one component. -/
theorem dropLast_components_of_slash_not_mem (hslash : '/' ∉ path) :
    (components path).dropLast = [] := by
  have hroot : path.head? ≠ some '/' := fun h => hslash (List.mem_of_head? h)
  rw [components_eq, lead, if_neg hroot, segments_of_slash_not_mem hslash, List.head?_cons]
  by_cases hdot : path = ['.']
  · rw [hdot]
    rfl
  · rw [if_neg fun h => hdot (Option.some.inj h), List.nil_append, List.filterMap_cons]
    split <;> rfl

/-- Only the empty segment and a single dot have no meaning. -/
theorem exists_ofSegment?_eq_some {segment : List Char} (hempty : segment ≠ [])
    (hdot : segment ≠ ['.']) : ∃ c, Component.ofSegment? segment = some c := by
  rw [Component.ofSegment?, if_neg (not_or.mpr ⟨hempty, hdot⟩)]
  split <;> exact ⟨_, rfl⟩

/-- Without a last segment that has a meaning there are the components up to the slash before it. -/
theorem dropLast_components_append_slash (base : List Char) {segment : List Char}
    (hslash : '/' ∉ segment) (hempty : segment ≠ []) (hdot : segment ≠ ['.']) :
    (components (base ++ '/' :: segment)).dropLast = components (base ++ ['/']) := by
  obtain ⟨c, hc⟩ := exists_ofSegment?_eq_some hempty hdot
  rw [components_slash, components_append_slash, segments_of_slash_not_mem hslash,
    List.filterMap_cons_some hc, List.filterMap_nil, List.dropLast_concat]

/-- A parent has the components of the path without the last one. -/
theorem components_of_parent? (h : parent? path = some above) :
    components above = (components path).dropLast := by
  rw [parent?] at h
  split at h
  next => cases h
  next => cases h
  next last hroot hlast =>
    obtain rfl := Option.some.inj h
    rw [components_trimEnd]
    rw [← components_trimEnd path] at hlast ⊢
    have hends := trimEnd_go_ends path.reverse
    rw [← trimEnd] at hends
    generalize trimEnd path = trimmed at hlast hends ⊢
    -- the path is what comes before its last slash and a segment
    have hsplit := List.takeWhile_append_dropWhile (p := (· != '/')) (l := trimmed.reverse)
    have hslash : '/' ∉ trimmed.reverse.takeWhile (· != '/') := fun hmem =>
      absurd (List.mem_takeWhile_imp hmem) (by decide)
    have hhead := List.head?_dropWhile_not (· != '/') trimmed.reverse
    generalize trimmed.reverse.takeWhile (· != '/') = segment at hsplit hslash
    generalize trimmed.reverse.dropWhile (· != '/') = before at hsplit hhead ⊢
    have htrimmed : trimmed = before.reverse ++ segment.reverse := by
      rw [← List.reverse_append, hsplit, List.reverse_reverse]
    rw [← List.mem_reverse] at hslash
    subst htrimmed
    cases before with
    | nil =>
      rw [List.reverse_nil, List.nil_append, dropLast_components_of_slash_not_mem hslash]
      rfl
    | cons c before =>
      obtain rfl : c = '/' := by simpa using hhead
      rw [List.reverse_cons, List.append_assoc, List.singleton_append] at hlast hends ⊢
      obtain hnil | hroot' | ⟨hend, hdot⟩ := hends
      · exact absurd hnil (List.append_ne_nil_of_right_ne_nil _ (List.cons_ne_nil _ _))
      · rw [hroot'] at hlast
        exact absurd (Option.some.inj hlast).symm hroot
      refine (dropLast_components_append_slash _ hslash (fun hnil => ?_) fun hsingle => ?_).symm
      · rw [hnil] at hend
        exact hend List.getLast?_concat
      · rw [hsingle] at hdot
        exact hdot ⟨_, rfl⟩

/-- After its start a path has names and steps up only. -/
theorem eq_parent_or_name_of_mem_tail {c : Component} (h : c ∈ (components path).tail) :
    c = .parent ∨ ∃ name, c = .name name := by
  have hmem : c ∈ (segments path).filterMap Component.ofSegment? := by
    rw [components_eq] at h
    have htail : ((lead path ++ (segments path).filterMap Component.ofSegment?).tail).Sublist
        ((segments path).filterMap Component.ofSegment?) := by
      rw [lead]
      split_ifs
      · exact .refl _
      · exact .refl _
      · exact List.tail_sublist _
    exact htail.mem h
  obtain ⟨segment, -, hsegment⟩ := List.mem_filterMap.mp hmem
  rw [Component.ofSegment?] at hsegment
  split_ifs at hsegment
  · exact .inl (Option.some.inj hsegment).symm
  · exact .inr ⟨segment, (Option.some.inj hsegment).symm⟩

/-- A path steps up only where a segment says so. -/
theorem parent_mem_components (h : Component.parent ∈ components path) :
    ['.', '.'] ∈ segments path := by
  rw [components_eq, List.mem_append] at h
  rcases h with h | h
  · rw [lead] at h
    split_ifs at h
    · cases List.mem_singleton.mp h
    · cases List.mem_singleton.mp h
    · cases h
  · obtain ⟨segment, hmem, hsegment⟩ := List.mem_filterMap.mp h
    rw [Component.ofSegment?] at hsegment
    split_ifs at hsegment with _ hup
    · rwa [← hup]
    · cases hsegment

end EdgeBundle.NativePath
