import EdgeBundle.Proofs.Vfs.Request

/-!
# Spellings of requests

An embedded file is asked for by its path, by a file URL, after a drive, or after a way into the
build directory and out again, and with backslashes for slashes. All of these have the path as their
plain form: a path has no scheme, no drive and no segment that leads up, so no step to the plain
form takes away a part of it.

## Main definitions

* `Spelling`: the texts by which the file at a path is asked for.

## Main statements

* `Spelling.normalizeRequest_eq`: the plain form of a spelling is the path.
* `lookup_of_spelling`: a file is found under every spelling of its path.
-/

namespace EdgeBundle.Vfs

/-! ## Steps to the plain form -/

theorem slashed_backslash (before after : List Char) :
    slashed (before ++ '\\' :: after) = slashed (before ++ '/' :: after) := by
  rw [slashed_append, slashed_append]
  rfl

theorem dropScheme_append (cs : List Char) : dropScheme ("file://".toList ++ cs) = cs := by
  rw [dropScheme, dropHead?_eq_some_iff.mpr rfl, Option.getD_some]

theorem dropDrive_cons {letter : Char} (hletter : letter.isAlpha = true) (cs : List Char) :
    dropDrive (letter :: ':' :: cs) = cs := by
  rw [dropDrive, RelPath.hasDrive_iff.mpr ⟨letter, cs, rfl, hletter⟩]
  rfl

section Paths

variable (k : RelPath)

theorem dropScheme_chars : dropScheme k.chars = k.chars := by
  refine dropScheme_eq_self ?_
  rintro ⟨rest, hrest⟩
  -- the two slashes of the scheme have an empty segment between them
  have hempty : [] ∈ segments k.chars := by
    rw [← hrest]
    change [] ∈ segments ("file:".toList ++ '/' :: ([] ++ '/' :: rest))
    rw [segments_append, segments_append]
    simp [segments]
  cases RelPath.isOrdinary_of_mem_segments hempty

theorem dropDrive_chars : dropDrive k.chars = k.chars := by
  rw [dropDrive, RelPath.chars, k.canonical.2.1]
  rfl

/-- After the start of the step out of a build directory that stands before a path there is no
other. -/
theorem hop_occurs_once : ¬ "/dist/../".toList <:+: ("/dist/../".toList ++ k.chars).tail := by
  rintro ⟨before, after, h⟩
  have hsplit : before ++ '/' :: ("dist".toList ++ '/' :: ("..".toList ++ '/' :: after)) =
      "dist".toList ++ '/' :: ("..".toList ++ '/' :: k.chars) := by
    simpa using h
  have hsegments := congrArg segments hsplit
  rw [segments_append, segments_append_slash (by decide), segments_append_slash (by decide),
    segments_append_slash (by decide), segments_append_slash (by decide)] at hsegments
  -- the segment that leads up is the second one on the right and a later one on the left
  rcases hbefore : segments before with - | ⟨first, - | ⟨second, rest⟩⟩
  · exact segments_ne_nil before hbefore
  · rw [hbefore] at hsegments
    cases (List.cons.inj (List.cons.inj hsegments).2).1
  · rw [hbefore] at hsegments
    refine k.up_not_mem_segments ?_
    rw [← (List.cons.inj (List.cons.inj hsegments).2).2]
    simp

theorem dropHop_append (before : List Char) :
    dropHop (before ++ ("/dist/../".toList ++ k.chars)) = k.chars := by
  rw [dropHop, afterLast?_append before (hop_occurs_once k), Option.getD_some]

theorem dropHop_chars : dropHop k.chars = k.chars :=
  dropHop_of_up_not_mem k.up_not_mem_segments

end Paths

/-! ## Spellings -/

/-- Texts by which the file at a path is asked for: the path, the path as a URL, after a drive, or
after a way into a build directory and out again, with backslashes for any of the slashes. -/
inductive Spelling (k : RelPath) : List Char → Prop
  /-- The path itself. -/
  | path : Spelling k k.chars
  /-- The path after the scheme of a file URL. -/
  | url : Spelling k ("file://".toList ++ k.chars)
  /-- The path after a drive. -/
  | drive {letter : Char} (hletter : letter.isAlpha = true) : Spelling k (letter :: ':' :: k.chars)
  /-- The path after a rooted text and a step out of a build directory. -/
  | hop (dir : List Char) : Spelling k ('/' :: dir ++ ("/dist/../".toList ++ k.chars))
  /-- A spelling with a backslash for one of the slashes. -/
  | backslash {before after : List Char} (h : Spelling k (before ++ '/' :: after)) :
      Spelling k (before ++ '\\' :: after)

/-- The plain form of a spelling is the path. -/
theorem Spelling.normalizeRequest_eq {k : RelPath} {cs : List Char} (h : Spelling k cs) :
    normalizeRequest cs = k.chars := by
  have hk : '\\' ∉ k.chars := k.canonical.1
  rw [Vfs.normalizeRequest_eq]
  -- each step takes away what the spelling puts in front, and leaves all else
  induction h with
  | path =>
    rw [slashed_of_not_mem hk, dropScheme_chars, dropDrive_chars, dropHop_chars]
  | url =>
    have hurl : '\\' ∉ "file://".toList ++ k.chars := by
      rw [List.mem_append, not_or]
      exact ⟨by decide, hk⟩
    rw [slashed_of_not_mem hurl, dropScheme_append, dropDrive_chars, dropHop_chars]
  | @drive letter hletter =>
    have hdrive : '\\' ∉ letter :: ':' :: k.chars := by
      rw [List.mem_cons, List.mem_cons, not_or, not_or]
      refine ⟨?_, by decide, hk⟩
      rintro rfl
      cases hletter
    have hscheme : ¬ "file://".toList <+: letter :: ':' :: k.chars := by
      rintro ⟨rest, hrest⟩
      cases (List.cons.inj (List.cons.inj hrest).2).1
    rw [slashed_of_not_mem hdrive, dropScheme_eq_self hscheme, dropDrive_cons hletter,
      dropHop_chars]
  | hop dir =>
    have hhop : slashed "/dist/../".toList = "/dist/../".toList := rfl
    have hdir : slashed ('/' :: dir) = '/' :: slashed dir := rfl
    rw [slashed_append, slashed_append, hhop, slashed_of_not_mem hk, hdir, List.cons_append,
      dropDrive_dropScheme_slash, ← List.cons_append, dropHop_append]
  | backslash _ ih => rw [slashed_backslash, ih]

/-- A file is found under every spelling of its path, at the first stage. -/
theorem lookup_of_spelling {vfs : Vfs} {k : RelPath} {content request : String}
    (hfile : vfs.get? k.text = some content) (h : Spelling k request.toList) :
    vfs.lookup request = .ok ⟨k, content, .exact⟩ := by
  have htest : (fun f : RelPath × String => f.1.chars == k.chars) =
      fun f => f.1.text == k.text := by
    funext f
    rw [Bool.eq_iff_iff, beq_iff_eq, beq_iff_eq, RelPath.chars, RelPath.chars, String.toList_inj]
  obtain ⟨f, hf, rfl⟩ := Option.map_eq_some_iff.mp hfile
  obtain rfl : f.1 = k := RelPath.ext (by simpa using List.find?_some hf)
  rw [lookup, h.normalizeRequest_eq, find?, htest, hf]

/-- A file asked for after a way through the build directory, with two of the slashes written as
backslashes. -/
theorem lookup_of_spelling_backslashes :
    ∃ (vfs : Vfs) (k : RelPath), k.text = "public/a.css" ∧ vfs.get? k.text = some "style" ∧
      Spelling k "\\app/dist/../public\\a.css".toList ∧
      vfs.lookup "\\app/dist/../public\\a.css" = .ok ⟨k, "style", .exact⟩ := by
  let k : RelPath := ⟨"public/a.css", by decide⟩
  let vfs : Vfs := ⟨[(k, "style")], by decide⟩
  have hfile : vfs.get? k.text = some "style" := by decide
  have hhop : Spelling k ('/' :: "app".toList ++ ("/dist/../".toList ++ k.chars)) := .hop _
  have hhead : '/' :: "app".toList ++ ("/dist/../".toList ++ k.chars) =
      [] ++ '/' :: "app/dist/../public/a.css".toList := by decide
  have hlast : [] ++ '\\' :: "app/dist/../public/a.css".toList =
      "\\app/dist/../public".toList ++ '/' :: "a.css".toList := by decide
  have hrequest : "\\app/dist/../public".toList ++ '\\' :: "a.css".toList =
      "\\app/dist/../public\\a.css".toList := by decide
  have hspelling : Spelling k "\\app/dist/../public\\a.css".toList := by
    rw [hhead] at hhop
    have hfirst := hhop.backslash
    rw [hlast] at hfirst
    exact hrequest ▸ hfirst.backslash
  exact ⟨vfs, k, rfl, hfile, hspelling, lookup_of_spelling hfile hspelling⟩

end EdgeBundle.Vfs
