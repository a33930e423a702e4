import EdgeBundle.Proofs.Path.Segments
import EdgeBundle.Specifier

/-!
# Ways between modules

A relative specifier leads from the directory of one module up to a directory that it shares with
another module, and down to that module. Following it gives the path of the other module, with
nothing lost or doubled.

## Main definitions

* `Route`: a way from the directory of a module to another module.
* `Route.specifier`: the way as a specifier.

## Main statements

* `Route.exists_isDirect`: there is a way that goes up no further than it must.
* `Route.resolve_specifier`, `Route.classify_specifier`: following a way leads to its end.
-/

namespace EdgeBundle

namespace Specifier

/-! ## Following segments -/

section Follow

variable {s d : List Char} {stack rest : List (List Char)}

theorem follow_skip (hs : s = [] ∨ s = ['.']) : follow stack (s :: rest) = follow stack rest := by
  rw [follow.eq_def]
  exact if_pos hs

theorem follow_enter (hs : RelPath.isOrdinary s = true) :
    follow stack (s :: rest) = follow (s :: stack) rest := by
  obtain ⟨hempty, hdot, hup⟩ := RelPath.isOrdinary_iff.mp hs
  rw [follow.eq_def]
  simp only [hempty, hdot, or_self, if_false, hup]

theorem follow_leave : follow (d :: stack) (['.', '.'] :: rest) = follow stack rest := rfl

/-- As many `..` as there are directories on top of a stack lead to what is below them. -/
theorem follow_up (up : List (List Char)) :
    follow (up ++ stack) (List.replicate up.length ['.', '.'] ++ rest) = follow stack rest := by
  induction up with
  | nil => rfl
  | cons d up ih =>
    rw [List.length_cons, List.replicate_succ, List.cons_append, List.cons_append, follow_leave, ih]

/-- Names are entered one after the other. -/
theorem follow_ordinary {ss : List (List Char)} (hss : ∀ s ∈ ss, RelPath.isOrdinary s = true) :
    follow stack ss = some (ss.reverse ++ stack) := by
  induction ss generalizing stack with
  | nil => rfl
  | cons s ss ih =>
    rw [List.forall_mem_cons] at hss
    rw [follow_enter hss.1, ih hss.2, List.reverse_cons, List.append_assoc, List.singleton_append]

/-- A joined path is entered name by name; an empty one leads nowhere else. -/
theorem follow_segments_joinSegments {ss : List (List Char)}
    (hss : ∀ s ∈ ss, RelPath.isOrdinary s = true ∧ '/' ∉ s) :
    follow stack (segments (joinSegments ss)) = some (ss.reverse ++ stack) := by
  cases ss with
  | nil => exact follow_skip (.inl rfl)
  | cons s ss =>
    rw [segments_joinSegments (fun t ht => (hss t ht).2) (List.cons_ne_nil s ss)]
    exact follow_ordinary fun t ht => (hss t ht).1

end Follow

/-- The stack of a directory that is given by its segments. -/
theorem stackOf_joinSegments {ss : List (List Char)} (hss : ∀ s ∈ ss, s ≠ [] ∧ '/' ∉ s) :
    stackOf (joinSegments ss) = ss.reverse := by
  cases ss with
  | nil => rfl
  | cons s ss =>
    have hne : ∀ t ∈ s :: ss, (t != []) = true := fun t ht => bne_iff_ne.mpr (hss t ht).1
    rw [stackOf, segments_joinSegments (fun t ht => (hss t ht).2) (List.cons_ne_nil s ss),
      List.filter_eq_self.mpr hne]

end Specifier

/-! ## Routes -/

/-- A way from the directory of module `a` to module `b`: up from a directory that both are in, and
down again. -/
structure Route (a b : RelPath) where
  /-- Directories that both modules are in. -/
  shared : List (List Char)
  /-- Directories that only the first one is in. -/
  up : List (List Char)
  /-- What is left of the path of the other one. -/
  down : List (List Char)
  /-- The directory of the first module. -/
  dir_eq : (segments a.chars).dropLast = shared ++ up
  /-- The path of the second module. -/
  path_eq : segments b.chars = shared ++ down

namespace Route

variable {a b : RelPath}

/-- The way as a specifier: `./`, or a `../` for each directory to leave, and the path down. -/
def specifier (r : Route a b) : String :=
  let head := if r.up = [] then ['.', '/'] else (List.replicate r.up.length ['.', '.', '/']).flatten
  String.ofList (head ++ joinSegments r.down)

/-- The way leaves no directory that it enters again. -/
def IsDirect (r : Route a b) : Prop :=
  ∀ s ∈ r.up.head?, s ∉ r.down.head?

/-- There is a way that goes up no further than it must. -/
theorem exists_isDirect (a b : RelPath) : ∃ r : Route a b, r.IsDirect := by
  suffices h : ∀ ss ts : List (List Char), ∃ shared up down, ss = shared ++ up ∧
      ts = shared ++ down ∧ ∀ s ∈ up.head?, s ∉ down.head? by
    obtain ⟨shared, up, down, hdir, hpath, hdirect⟩ :=
      h (segments a.chars).dropLast (segments b.chars)
    exact ⟨⟨shared, up, down, hdir, hpath⟩, hdirect⟩
  intro ss
  -- directories are shared as long as the next one is the same on both sides
  induction ss with
  | nil => exact fun ts => ⟨[], [], ts, rfl, rfl, by simp⟩
  | cons s ss ih =>
    intro ts
    cases ts with
    | nil => exact ⟨[], s :: ss, [], rfl, rfl, by simp⟩
    | cons t ts =>
      by_cases hst : s = t
      · subst hst
        obtain ⟨shared, up, down, rfl, rfl, hdirect⟩ := ih ts
        exact ⟨s :: shared, up, down, rfl, rfl, hdirect⟩
      · exact ⟨[], s :: ss, t :: ts, rfl, rfl, by simpa [eq_comm] using hst⟩

theorem mem_segments_of_mem_down (r : Route a b) {s : List Char} (hs : s ∈ r.down) :
    s ∈ segments b.chars := by
  rw [r.path_eq]
  exact List.mem_append_right _ hs

theorem segments_specifier (r : Route a b) :
    segments r.specifier.toList =
      (if r.up = [] then [['.']] else List.replicate r.up.length ['.', '.']) ++
        segments (joinSegments r.down) := by
  have hup : ∀ n rest, segments ((List.replicate n ['.', '.', '/']).flatten ++ rest) =
      List.replicate n ['.', '.'] ++ segments rest := by
    intro n rest
    induction n with
    | zero => rfl
    | succ n ih =>
      rw [List.replicate_succ, List.flatten_cons, List.append_assoc, List.replicate_succ]
      exact (segments_append_slash (s := ['.', '.']) (by decide) _).trans (congrArg _ ih)
  rw [specifier, String.toList_ofList]
  split
  · exact segments_append_slash (s := ['.']) (by decide) _
  · exact hup _ _

/-- The specifier is made of the characters of the path, points and slashes. -/
theorem not_mem_specifier (r : Route a b) {c : Char} (hdot : c ≠ '.') (hslash : c ≠ '/')
    (hc : c ∉ b.chars) : c ∉ r.specifier.toList := by
  have hdown : c ∉ joinSegments r.down := by
    rw [← joinSegments_segments b.chars, mem_joinSegments hslash] at hc
    rw [mem_joinSegments hslash]
    rintro ⟨s, hs, hmem⟩
    exact hc ⟨s, r.mem_segments_of_mem_down hs, hmem⟩
  rw [specifier, String.toList_ofList]
  split <;> simp [hdot, hslash, hdown]

/-- Following a way leads to its end. -/
theorem resolve_specifier (r : Route a b) : Specifier.resolve a.dir r.specifier = .ok b.text := by
  have hdown : ∀ s ∈ r.down, RelPath.isOrdinary s = true ∧ '/' ∉ s := fun s hs =>
    ⟨RelPath.isOrdinary_of_mem_segments (r.mem_segments_of_mem_down hs),
      slash_not_mem_of_mem_segments (r.mem_segments_of_mem_down hs)⟩
  have hdir : ∀ s ∈ r.shared ++ r.up, s ≠ [] ∧ '/' ∉ s := fun s hs => by
    rw [← r.dir_eq] at hs
    have hmem := List.dropLast_subset _ hs
    exact ⟨(RelPath.isOrdinary_iff.mp (RelPath.isOrdinary_of_mem_segments hmem)).1,
      slash_not_mem_of_mem_segments hmem⟩
  -- the directories to leave are on top of the stack
  have hstack : Specifier.stackOf a.dir.toList = r.up.reverse ++ r.shared.reverse := by
    rw [RelPath.dir, String.toList_ofList, beforeLastSegment, r.dir_eq,
      Specifier.stackOf_joinSegments hdir, List.reverse_append]
  have hfollow : Specifier.follow (Specifier.stackOf a.dir.toList) (segments r.specifier.toList) =
      some (segments b.chars).reverse := by
    rw [hstack, r.segments_specifier, r.path_eq, List.reverse_append,
      ← Specifier.follow_segments_joinSegments hdown]
    split
    next hup =>
      rw [hup]
      exact Specifier.follow_skip (.inr rfl)
    next =>
      rw [← List.length_reverse]
      exact Specifier.follow_up _
  have hne : (segments b.chars).reverse ≠ [] := by simp [segments_ne_nil]
  rw [Specifier.resolve, hfollow]
  split
  next h => cases h
  next h => exact absurd (Option.some.inj h) hne
  next stack _ h =>
    obtain rfl := Option.some.inj h
    rw [List.reverse_reverse, joinSegments_segments, RelPath.chars, String.ofList_toList]

/-- A way is a specifier of the module at its end, whatever builtins are called. -/
theorem classify_specifier (r : Route a b) (builtinHead : String) :
    Specifier.classify a r.specifier builtinHead = .ok (.relative b.text) := by
  have hrelative : Specifier.isRelative r.specifier.toList = true := by
    rw [specifier, String.toList_ofList]
    cases hup : r.up with
    | nil => rfl
    | cons d up => rfl
  rw [Specifier.classify, if_pos hrelative, r.resolve_specifier]
  rfl

end Route

end EdgeBundle
