import EdgeBundle.Path.Relative
import Mathlib.Data.List.Basic

/-!
# Segments of paths

Cutting a text at its slashes, its last segment, and what the form of a path says of its ends.

## Main statements

* `segments_append` and `segments_joinSegments`: cutting at slashes inverts joining with slashes.
* `segments_isSuffix_segments_iff`: whole segments at the end of a text.
* `eq_lastSegment_or`: a text ends with its last segment.
* `RelPath.head?_chars` and `RelPath.getLast?_chars`: no slash is at an end of a path.
-/

namespace EdgeBundle

/-! ## Cutting at slashes -/

theorem segments_of_slash_not_mem {s : List Char} (hs : '/' ∉ s) : segments s = [s] := by
  induction s with
  | nil => rfl
  | cons c s ih =>
    rw [List.mem_cons, not_or] at hs
    rw [segments, if_neg fun h => hs.1 h.symm, ih hs.2]

/-- A slash keeps apart the segments before it and those after it. -/
theorem segments_append (as bs : List Char) :
    segments (as ++ '/' :: bs) = segments as ++ segments bs := by
  induction as with
  | nil => exact if_pos rfl
  | cons c as ih =>
    rw [List.cons_append, segments, segments]
    split
    next => rw [ih, List.cons_append]
    next =>
      rw [ih]
      cases hss : segments as with
      | nil => exact absurd hss (segments_ne_nil as)
      | cons s ss => rfl

/-- The first segment ends at the first slash. -/
theorem segments_append_slash {s : List Char} (hs : '/' ∉ s) (rest : List Char) :
    segments (s ++ '/' :: rest) = s :: segments rest := by
  rw [segments_append, segments_of_slash_not_mem hs, List.singleton_append]

theorem slash_not_mem_of_mem_segments {cs s : List Char} (h : s ∈ segments cs) : '/' ∉ s := by
  induction cs generalizing s with
  | nil =>
    rw [List.mem_singleton.mp h]
    exact List.not_mem_nil
  | cons c cs ih =>
    rw [segments] at h
    split at h
    next =>
      rcases List.mem_cons.mp h with rfl | h
      · exact List.not_mem_nil
      · exact ih h
    next hc =>
      cases hss : segments cs with
      | nil => exact absurd hss (segments_ne_nil cs)
      | cons first rest =>
        rw [hss] at h ih
        rcases List.mem_cons.mp h with rfl | h
        · rw [List.mem_cons, not_or]
          exact ⟨fun hslash => hc hslash.symm, ih List.mem_cons_self⟩
        · exact ih (List.mem_cons_of_mem _ h)

/-- Cutting at slashes gives back the pieces that slashes have joined. -/
theorem segments_joinSegments {ss : List (List Char)} (hss : ∀ s ∈ ss, '/' ∉ s) (hne : ss ≠ []) :
    segments (joinSegments ss) = ss := by
  induction ss with
  | nil => exact absurd rfl hne
  | cons s ss ih =>
    rw [List.forall_mem_cons] at hss
    cases ss with
    | nil => exact segments_of_slash_not_mem hss.1
    | cons t ss =>
      rw [joinSegments, segments_append_slash hss.1, ih hss.2 (List.cons_ne_nil t ss)]
      exact List.cons_ne_nil t ss

theorem joinSegments_cons {ss : List (List Char)} (s : List Char) (hss : ss ≠ []) :
    joinSegments (s :: ss) = s ++ '/' :: joinSegments ss := by
  rw [joinSegments]
  exact hss

theorem joinSegments_append {ss ts : List (List Char)} (hss : ss ≠ []) (hts : ts ≠ []) :
    joinSegments (ss ++ ts) = joinSegments ss ++ '/' :: joinSegments ts := by
  induction ss with
  | nil => exact absurd rfl hss
  | cons s ss ih =>
    by_cases hnil : ss = []
    · rw [hnil, List.singleton_append, joinSegments_cons s hts]
      rfl
    · rw [List.cons_append, joinSegments_cons s (List.append_ne_nil_of_left_ne_nil hnil ts),
        ih hnil, joinSegments_cons s hnil, List.append_assoc, List.cons_append]

/-- Whole segments at the end of a text are the text, or they come after a slash. -/
theorem segments_isSuffix_segments_iff {text ending : List Char} :
    segments ending <:+ segments text ↔
      text = ending ∨ ∃ before, text = before ++ '/' :: ending := by
  constructor
  · rintro ⟨front, hfront⟩
    have hjoin : text = joinSegments (front ++ segments ending) := by
      rw [hfront, joinSegments_segments]
    by_cases hnil : front = []
    · rw [hnil, List.nil_append, joinSegments_segments] at hjoin
      exact .inl hjoin
    · rw [joinSegments_append hnil (segments_ne_nil ending), joinSegments_segments] at hjoin
      exact .inr ⟨joinSegments front, hjoin⟩
  · rintro (rfl | ⟨before, rfl⟩)
    · exact List.suffix_rfl
    · rw [segments_append]
      exact List.suffix_append _ _

/-- Joining adds slashes only. -/
theorem mem_joinSegments {ss : List (List Char)} {c : Char} (hc : c ≠ '/') :
    c ∈ joinSegments ss ↔ ∃ s ∈ ss, c ∈ s := by
  fun_induction joinSegments ss with
  | case1 => simp
  | case2 s => simp
  | case3 s ss _ ih => simp [ih, hc]

/-! ## Last segments -/

theorem lastSegment_of_slash_not_mem {cs : List Char} (h : '/' ∉ cs) : lastSegment cs = cs := by
  rw [lastSegment, segments_of_slash_not_mem h]
  rfl

/-- What stands before a slash is no part of the last segment. -/
theorem lastSegment_append (as bs : List Char) :
    lastSegment (as ++ '/' :: bs) = lastSegment bs := by
  rw [lastSegment, segments_append, lastSegment, List.getLastD_eq_getLast?, List.getLast?_append,
    List.getLastD_eq_getLast?]
  cases h : (segments bs).getLast? with
  | none => exact absurd (List.getLast?_eq_none_iff.mp h) (segments_ne_nil bs)
  | some s => rfl

theorem getLast?_segments (cs : List Char) : (segments cs).getLast? = some (lastSegment cs) := by
  rw [lastSegment, List.getLastD_eq_getLast?, List.getLast?_eq_some_getLast (segments_ne_nil cs)]
  rfl

theorem slash_not_mem_lastSegment (cs : List Char) : '/' ∉ lastSegment cs :=
  slash_not_mem_of_mem_segments (List.mem_of_getLast? (getLast?_segments cs))

/-- A text is its last segment, or the segment comes after a slash. -/
theorem eq_lastSegment_or (cs : List Char) :
    cs = lastSegment cs ∨ ∃ before, cs = before ++ '/' :: lastSegment cs := by
  induction cs with
  | nil => exact .inl rfl
  | cons c cs ih =>
    rcases ih with hcs | ⟨before, hcs⟩
    -- only the first character may be a slash
    · rw [hcs]
      by_cases hc : c = '/'
      · rw [hc, ← List.nil_append ('/' :: _), lastSegment_append, ← hcs]
        exact .inr ⟨[], by rw [← hcs]⟩
      · refine .inl (lastSegment_of_slash_not_mem ?_).symm
        rw [List.mem_cons, not_or]
        exact ⟨Ne.symm hc, slash_not_mem_lastSegment cs⟩
    · have hlast : lastSegment (c :: cs) = lastSegment cs := by
        rw [hcs, ← List.cons_append, lastSegment_append, lastSegment_append]
      rw [hlast]
      exact .inr ⟨c :: before, congrArg (c :: ·) hcs⟩

/-! ## Paths -/

namespace RelPath

/-- Segments of a path name something in their directory. -/
theorem isOrdinary_of_mem_segments {p : RelPath} {s : List Char} (h : s ∈ segments p.chars) :
    isOrdinary s = true :=
  p.canonical.2.2 s h

theorem isOrdinary_iff {s : List Char} :
    isOrdinary s = true ↔ s ≠ [] ∧ s ≠ ['.'] ∧ s ≠ ['.', '.'] := by
  simp [isOrdinary, and_assoc]

/-- A drive is a letter with a colon. -/
theorem hasDrive_iff {cs : List Char} :
    hasDrive cs = true ↔ ∃ c rest, cs = c :: ':' :: rest ∧ c.isAlpha = true := by
  constructor
  · intro h
    unfold hasDrive at h
    split at h
    next c rest => exact ⟨c, rest, rfl, h⟩
    next => cases h
  · rintro ⟨c, rest, rfl, hc⟩
    exact hc

/-- Paths with the same characters are the same. -/
theorem ext_chars {p q : RelPath} (h : p.chars = q.chars) : p = q :=
  RelPath.ext (String.toList_injective h)

/-- A path is not empty. -/
theorem chars_ne_nil (p : RelPath) : p.chars ≠ [] := by
  intro h
  have hempty : [] ∈ segments p.chars := by rw [h]; exact List.mem_cons_self
  cases isOrdinary_of_mem_segments hempty

/-- A path starts with no slash. -/
theorem head?_chars (p : RelPath) : p.chars.head? ≠ some '/' := by
  intro h
  obtain ⟨rest, hrest⟩ := List.head?_eq_some_iff.mp h
  have hempty : [] ∈ segments p.chars := by
    rw [hrest, segments, if_pos rfl]
    exact List.mem_cons_self
  cases isOrdinary_of_mem_segments hempty

/-- A path ends with no slash. -/
theorem getLast?_chars (p : RelPath) : p.chars.getLast? ≠ some '/' := by
  intro h
  obtain ⟨before, hbefore⟩ := List.getLast?_eq_some_iff.mp h
  have hempty : [] ∈ segments p.chars := by
    rw [hbefore, segments_append]
    exact List.mem_append_right _ List.mem_cons_self
  cases isOrdinary_of_mem_segments hempty

/-- No path ends a text that ends with a slash. -/
theorem not_isSuffix_slash (p : RelPath) (cs : List Char) : ¬ p.chars <:+ cs ++ ['/'] := by
  rintro ⟨before, h⟩
  have hlast := congrArg List.getLast? h
  rw [List.getLast?_append_of_ne_nil _ p.chars_ne_nil, List.getLast?_concat] at hlast
  exact p.getLast?_chars hlast

/-- Between two slashes a path stands in what is between them. -/
theorem isInfix_of_isInfix_slash {p : RelPath} {cs : List Char}
    (h : p.chars <:+: '/' :: (cs ++ ['/'])) : p.chars <:+: cs := by
  rcases List.infix_cons_iff.mp h with ⟨rest, hstarts⟩ | h
  · obtain ⟨c, chars, hchars⟩ := List.exists_cons_of_ne_nil p.chars_ne_nil
    rw [hchars] at hstarts
    obtain rfl : c = '/' := (List.cons.inj hstarts).1
    exact absurd (by rw [hchars]; rfl) p.head?_chars
  rcases List.infix_concat_iff.mp h with hsuffix | h
  · exact absurd hsuffix (p.not_isSuffix_slash cs)
  · exact h

/-- No segment of a path leads up. -/
theorem up_not_mem_segments (p : RelPath) : ['.', '.'] ∉ segments p.chars := by
  intro h
  cases isOrdinary_of_mem_segments h

end RelPath

end EdgeBundle
