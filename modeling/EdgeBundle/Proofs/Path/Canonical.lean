import EdgeBundle.Proofs.Path.Native
import EdgeBundle.Proofs.Vfs.Request
import Mathlib.Data.List.TakeWhile

/-!
# Paths in canonical form

However a path is made, from a text, from a file below a folder or from another path with a head
before it, its text is in one form. The form is read back as it is, and it is put together again
from its directory and its file name.

## Main definitions

* `IsPlain`: the form of the text of a path, and what its parts are.

## Main statements

* `ofText_eq_ok_iff`: a text is read as the path that is its plain form.
* `exists_ofText_iff`: the texts that are read as a path.
* `extensionOf?_eq_some_iff`: an extension starts at the last point of a name, but not at its start.
* `exists_withHead_publicHead`: every path has a place in the public tree.
* `made_isPlain`: the form of all paths, by the ways in which they are made.
-/

namespace EdgeBundle

/-- A text with a slash is what comes before its last segment, a slash, and that segment. -/
theorem eq_beforeLastSegment_append {cs : List Char} (h : '/' ∈ cs) :
    cs = beforeLastSegment cs ++ '/' :: lastSegment cs := by
  have hsegments : segments cs = (segments cs).dropLast ++ [lastSegment cs] := by
    rw [List.dropLast_append_getLast? _ (getLast?_segments cs)]
  have hne : (segments cs).dropLast ≠ [] := by
    intro hnil
    rw [hnil, List.nil_append] at hsegments
    have hlast := joinSegments_segments cs
    rw [hsegments] at hlast
    rw [← hlast] at h
    exact slash_not_mem_lastSegment cs h
  calc
    cs = joinSegments (segments cs) := (joinSegments_segments cs).symm
    _ = joinSegments ((segments cs).dropLast ++ [lastSegment cs]) := by rw [← hsegments]
    _ = beforeLastSegment cs ++ '/' :: lastSegment cs :=
      joinSegments_append hne (List.cons_ne_nil _ _)

theorem beforeLastSegment_of_slash_not_mem {cs : List Char} (h : '/' ∉ cs) :
    beforeLastSegment cs = [] := by
  rw [beforeLastSegment, segments_of_slash_not_mem h]
  rfl

namespace RelPath

variable {raw root file head : String} {p q : RelPath} {cs name : List Char}

/-! ## Reading a path -/

theorem normalize_eq (cs : List Char) :
    normalize cs = (dropHead? ['.', '/'] (Vfs.slashed cs)).getD (Vfs.slashed cs) := rfl

/-- A text without backslashes is in plain form, unless it starts in the current folder. -/
theorem normalize_eq_self (hbackslash : '\\' ∉ cs) (hdot : ¬ ['.', '/'] <+: cs) :
    normalize cs = cs := by
  have hnone : dropHead? ['.', '/'] cs = none := by
    refine Option.eq_none_iff_forall_ne_some.mpr fun rest hrest => hdot ?_
    rw [dropHead?_eq_some_iff.mp hrest]
    exact List.prefix_append _ _
  rw [normalize_eq, Vfs.slashed_of_not_mem hbackslash, hnone, Option.getD_none]

/-- A text whose segments all name something does not start in the current folder. -/
theorem not_isPrefix_dot (h : ∀ s ∈ segments cs, isOrdinary s = true) : ¬ ['.', '/'] <+: cs := by
  rintro ⟨rest, rfl⟩
  have hdot : ['.'] ∈ segments (['.', '/'] ++ rest) := List.mem_cons_self
  cases h _ hdot

/-- Names without backslashes are put together in plain form. -/
theorem normalize_joinSegments {names : List (List Char)}
    (hnames : ∀ n ∈ names, isOrdinary n = true ∧ '/' ∉ n)
    (hbackslash : ∀ n ∈ names, '\\' ∉ n) : normalize (joinSegments names) = joinSegments names := by
  have hmem : '\\' ∉ joinSegments names := by
    rw [mem_joinSegments (by decide)]
    rintro ⟨n, hn, hmem⟩
    exact hbackslash n hn hmem
  refine normalize_eq_self hmem ?_
  by_cases hnil : names = []
  · rw [hnil]
    exact fun h => nomatch List.prefix_nil.mp h
  · refine not_isPrefix_dot ?_
    rw [segments_joinSegments (fun n hn => (hnames n hn).2) hnil]
    exact fun n hn => (hnames n hn).1

theorem backslash_not_mem_normalize (cs : List Char) : '\\' ∉ normalize cs := by
  have hslashed : '\\' ∉ Vfs.slashed cs := by
    rw [Vfs.slashed, List.mem_map]
    rintro ⟨c, -, hc⟩
    split at hc
    next => cases hc
    next hne => exact hne hc
  rw [normalize_eq]
  cases hrest : dropHead? ['.', '/'] (Vfs.slashed cs) with
  | none => exact hslashed
  | some rest =>
    rw [dropHead?_eq_some_iff.mp hrest] at hslashed
    exact fun hmem => hslashed (List.mem_append_right _ hmem)

/-- The text of a path is its own plain form. -/
theorem normalize_chars (p : RelPath) : normalize p.chars = p.chars :=
  normalize_eq_self p.canonical.1 (not_isPrefix_dot p.canonical.2.2)

/-- A text is read as the path that is its plain form. -/
theorem ofText_eq_ok_iff : ofText raw = .ok p ↔ normalize raw.toList = p.chars := by
  rw [ofText]
  constructor
  · intro h
    split at h
    next => cases h
    split at h
    next => cases h
    split at h
    next =>
      obtain rfl := Except.ok.inj h
      exact String.toList_ofList.symm
    next => cases h
  · intro h
    have hcanonical : Canonical p.chars := p.canonical
    simp only [h, p.chars_ne_nil, p.head?_chars, hcanonical.2.1, hcanonical, if_false, dif_pos,
      or_self, Bool.false_eq_true]
    exact congrArg Except.ok (RelPath.ext String.ofList_toList)

/-- A text is read as a path if its plain form starts with no drive and all its segments name
something. -/
theorem exists_ofText_iff :
    (∃ p, ofText raw = .ok p) ↔ hasDrive (normalize raw.toList) = false ∧
      ∀ s ∈ segments (normalize raw.toList), isOrdinary s = true := by
  constructor
  · rintro ⟨p, hp⟩
    rw [ofText_eq_ok_iff.mp hp]
    exact p.canonical.2
  · intro h
    have hcanonical : Canonical (normalize raw.toList) := ⟨backslash_not_mem_normalize _, h⟩
    refine ⟨⟨String.ofList (normalize raw.toList), by rwa [String.toList_ofList]⟩, ?_⟩
    exact ofText_eq_ok_iff.mpr String.toList_ofList.symm

/-- A path is read back from its text. -/
theorem ofText_text (p : RelPath) : ofText p.text = .ok p :=
  ofText_eq_ok_iff.mpr (normalize_chars p)

theorem withHead_eq_ok_iff :
    p.withHead head = .ok q ↔ normalize (head.toList ++ p.chars) = q.chars := by
  rw [withHead, ofText_eq_ok_iff, String.toList_append]
  rfl

/-! ## Parts of a path -/

@[simp]
theorem toList_dir (p : RelPath) : p.dir.toList = beforeLastSegment p.chars :=
  String.toList_ofList

@[simp]
theorem toList_fileName (p : RelPath) : p.fileName.toList = lastSegment p.chars :=
  String.toList_ofList

/-- Only a file at the top is in no directory. -/
theorem dir_eq_empty_iff : p.dir = "" ↔ '/' ∉ p.chars := by
  rw [← String.toList_inj, toList_dir]
  constructor
  · intro hdir hslash
    have hchars := eq_beforeLastSegment_append hslash
    rw [hdir] at hchars
    exact p.head?_chars (congrArg List.head? hchars)
  · exact beforeLastSegment_of_slash_not_mem

/-- A path is put together from its directory and its file name. -/
theorem text_eq_dir_fileName (p : RelPath) :
    p.text = if p.dir = "" then p.fileName else p.dir ++ "/" ++ p.fileName := by
  apply String.toList_injective
  split
  next hdir =>
    rw [toList_fileName, lastSegment_of_slash_not_mem (dir_eq_empty_iff.mp hdir)]
    rfl
  next hdir =>
    have hslash : '/' ∈ p.chars := not_not.mp (mt dir_eq_empty_iff.mpr hdir)
    rw [String.toList_append, String.toList_append, toList_dir, toList_fileName, List.append_assoc]
    exact eq_beforeLastSegment_append hslash

/-- An extension starts at the last point of a name, but not at the start of the name. -/
theorem extensionOf?_eq_some_iff {extension : List Char} :
    extensionOf? name = some extension ↔ ∃ stem letters,
      stem ≠ [] ∧ '.' ∉ letters ∧ extension = '.' :: letters ∧ name = stem ++ extension := by
  rw [extensionOf?, List.span_eq_takeWhile_dropWhile]
  -- the name is searched from its end
  constructor
  · intro h
    have hname := List.takeWhile_append_dropWhile (p := (· != '.')) (l := name.reverse)
    have hletters : '.' ∉ name.reverse.takeWhile (· != '.') := fun hmem => by
      simpa using List.mem_takeWhile_imp hmem
    have hhead := List.head?_dropWhile_not (· != '.') name.reverse
    split at h
    next => cases h
    next letters point stem hspan =>
      obtain ⟨hfirst, hrest⟩ := Prod.mk.inj hspan
      rw [hfirst, hrest] at hname
      rw [hfirst] at hletters
      obtain rfl : point = '.' := by simpa [hrest] using hhead
      rw [Option.ite_none_left_eq_some] at h
      refine ⟨stem.reverse, letters.reverse, by simpa using h.1, by simpa using hletters,
        (Option.some.inj h.2).symm, ?_⟩
      rw [← Option.some.inj h.2, ← List.reverse_reverse name, ← hname]
      simp
  · rintro ⟨stem, letters, hstem, hletters, rfl, rfl⟩
    have hne : ∀ c ∈ letters.reverse, (c != '.') = true := by
      intro c hc
      rw [bne_iff_ne]
      rintro rfl
      exact hletters (List.mem_reverse.mp hc)
    rw [List.reverse_append, List.reverse_cons, List.append_assoc,
      List.takeWhile_append_of_pos hne, List.dropWhile_append_of_pos hne]
    simp [hstem]

/-! ## The form of a path -/

/-- The text of a path is in one form, which is read back as it is, and it is put together from its
parts. -/
structure IsPlain (p : RelPath) : Prop where
  /-- There is no backslash. -/
  backslash_not_mem : '\\' ∉ p.chars
  /-- It does not start at the root. -/
  head?_ne_slash : p.chars.head? ≠ some '/'
  /-- It does not start with a drive. -/
  not_drive : ¬ ∃ letter rest, p.chars = letter :: ':' :: rest ∧ letter.isAlpha = true
  /-- It is made of names with slashes between them. -/
  exists_names : ∃ names, names ≠ [] ∧ p.chars = joinSegments names ∧
    ∀ s ∈ names, '/' ∉ s ∧ s ≠ [] ∧ s ≠ ['.'] ∧ s ≠ ['.', '.']
  /-- It is read back as it is. -/
  ofText_text : ofText p.text = .ok p
  /-- It is a file name, after its directory if it has one. -/
  text_eq : p.text = if p.dir = "" then p.fileName else p.dir ++ "/" ++ p.fileName
  /-- The file name is one segment. -/
  slash_not_mem_fileName : '/' ∉ p.fileName.toList
  /-- An extension ends the file name after something else. -/
  extension : ∀ e, p.extension? = some e → ∃ stem, stem ≠ "" ∧ p.fileName = stem ++ e

theorem isPlain (p : RelPath) : p.IsPlain where
  backslash_not_mem := p.canonical.1
  head?_ne_slash := p.head?_chars
  not_drive h := by
    have hdrive := hasDrive_iff.mpr h
    rw [chars, p.canonical.2.1] at hdrive
    cases hdrive
  exists_names := by
    refine ⟨segments p.chars, segments_ne_nil _, (joinSegments_segments _).symm, fun s hs => ?_⟩
    exact ⟨slash_not_mem_of_mem_segments hs, isOrdinary_iff.mp (isOrdinary_of_mem_segments hs)⟩
  ofText_text := p.ofText_text
  text_eq := p.text_eq_dir_fileName
  slash_not_mem_fileName := by
    rw [toList_fileName]
    exact slash_not_mem_lastSegment _
  extension e h := by
    obtain ⟨extension, hextension, rfl⟩ := Option.map_eq_some_iff.mp h
    obtain ⟨stem, letters, hstem, -, -, hname⟩ := extensionOf?_eq_some_iff.mp hextension
    refine ⟨String.ofList stem, fun h => hstem ?_, ?_⟩
    · simpa using congrArg String.toList h
    · rw [fileName, hname, String.ofList_append]

/-- Every path has a place in the public tree. -/
theorem exists_withHead_publicHead (p : RelPath) :
    ∃ q, p.withHead publicHead = .ok q ∧ q.text = publicHead ++ p.text := by
  have hchars : (publicHead ++ p.text).toList = "public".toList ++ '/' :: p.chars := by
    rw [String.toList_append]
    rfl
  have hcanonical : Canonical (publicHead ++ p.text).toList := by
    rw [hchars]
    refine ⟨?_, rfl, ?_⟩
    · rw [List.mem_append, List.mem_cons, not_or, not_or]
      exact ⟨by decide, by decide, p.canonical.1⟩
    · rw [segments_append_slash (by decide), List.forall_mem_cons]
      exact ⟨by decide, p.canonical.2.2⟩
  exact ⟨⟨publicHead ++ p.text, hcanonical⟩, ofText_text ⟨_, hcanonical⟩, rfl⟩

/-- What is written before a path tells nothing of the path, so different paths stay different. -/
theorem eq_of_withHead_publicHead {p' : RelPath} (h : p.withHead publicHead = .ok q)
    (h' : p'.withHead publicHead = .ok q) : p = p' := by
  obtain ⟨r, hr, htext⟩ := exists_withHead_publicHead p
  obtain ⟨r', hr', htext'⟩ := exists_withHead_publicHead p'
  obtain rfl := Except.ok.inj (h.symm.trans hr)
  obtain rfl := Except.ok.inj (h'.symm.trans hr')
  refine ext_chars ?_
  have hchars := congrArg String.toList (htext.symm.trans htext')
  rw [String.toList_append, String.toList_append] at hchars
  exact List.append_cancel_left hchars

theorem isPublic_of_withHead (h : p.withHead publicHead = .ok q) : q.isPublic = true := by
  obtain ⟨r, hr, htext⟩ := exists_withHead_publicHead p
  obtain rfl := Except.ok.inj (h.symm.trans hr)
  rw [isPublic, List.isPrefixOf_iff_prefix, chars, htext, String.toList_append]
  exact List.prefix_append _ _

/-- A path is in one form in whichever way it is made: read from a text, told from a file below a
folder, or with a head before another path. So every path has a place of its own in the public
tree. -/
theorem made_isPlain :
    (∀ raw p, ofText raw = .ok p → p.chars = normalize raw.toList ∧ p.IsPlain) ∧
    (∀ root file p, relativeTo root file = .ok p → p.IsPlain ∧ ∃ names : List (List Char),
      NativePath.components file.toList = NativePath.components root.toList ++ names.map .name ∧
      p.chars = normalize (joinSegments names)) ∧
    (∀ (p : RelPath) head q, p.withHead head = .ok q →
      q.chars = normalize (head.toList ++ p.chars) ∧ q.IsPlain) ∧
    (∀ p : RelPath, ∃ q, p.withHead publicHead = .ok q ∧ q.isPublic = true) ∧
    ∀ p p' q : RelPath, p.withHead publicHead = .ok q → p'.withHead publicHead = .ok q →
      p = p' := by
  refine ⟨fun raw p h => ⟨(ofText_eq_ok_iff.mp h).symm, p.isPlain⟩, fun root file p h => ?_,
    fun p head q h => ⟨(withHead_eq_ok_iff.mp h).symm, q.isPlain⟩, fun p => ?_,
    fun p p' q h h' => eq_of_withHead_publicHead h h'⟩
  · obtain ⟨names, hnames⟩ := exists_names_of_relativeTo h
    rw [relativeTo_of_components hnames, ofText_eq_ok_iff, String.toList_ofList] at h
    exact ⟨p.isPlain, names, hnames, h.symm⟩
  · obtain ⟨q, hq, -⟩ := exists_withHead_publicHead p
    exact ⟨q, hq, isPublic_of_withHead hq⟩

/-- A path from a text with a backslash, the same path from a file below a folder, and its place in
the public tree. -/
theorem made_isPlain_archive :
    ∃ p q : RelPath, ofText "./chunks\\a.tar.gz" = .ok p ∧
      relativeTo "/srv/./out/" "/srv//out/chunks/a.tar.gz" = .ok p ∧
      p.withHead publicHead = .ok q ∧ p.chars = normalize "./chunks\\a.tar.gz".toList ∧
      p.IsPlain ∧ q.IsPlain ∧
      (∀ p' : RelPath, p'.withHead publicHead = .ok q → p' = p) ∧
      p.extension? = some ".gz" := by
  let p : RelPath := ⟨"chunks/a.tar.gz", by decide⟩
  let q : RelPath := ⟨"public/chunks/a.tar.gz", by decide⟩
  have htext : ofText "./chunks\\a.tar.gz" = .ok p := by decide
  have hfile : relativeTo "/srv/./out/" "/srv//out/chunks/a.tar.gz" = .ok p := by decide
  have hhead : p.withHead publicHead = .ok q := by decide
  obtain ⟨hread, hbelow, hwith, -, hinjective⟩ := made_isPlain
  exact ⟨p, q, htext, hfile, hhead, (hread _ p htext).1, (hbelow _ _ p hfile).1,
    (hwith p _ q hhead).2, fun p' hp' => hinjective p' p q hp' hhead, by decide⟩

end RelPath

end EdgeBundle
