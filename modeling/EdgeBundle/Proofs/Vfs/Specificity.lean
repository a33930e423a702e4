import EdgeBundle.Proofs.Vfs.Content
import EdgeBundle.Proofs.Vfs.Request
import Mathlib.Data.List.MinMax

/-!
# Requests that end with a path

Several paths can end one request, and a request can match paths that do not end it. The lookup
takes the first match in the order of the paths, which need not be the most specific one: it is the
longest path that ends the request exactly if no path before that one matches at the second stage.

## Main definitions

* `RelPath.Ends`: the last segments of a text are those of a path.
* `Vfs.IsLongestEnding`: the longest path that ends a text.

## Main statements

* `RelPath.ends_normalizeRequest`: a path below a directory ends the request in plain form.
* `Vfs.lookup_of_ends`: the answer to a request that a path ends.
* `Vfs.exists_lookup_ne_longest`: the answer need not be the longest path.
-/

namespace EdgeBundle

/-! ## Paths at the end of a text -/

namespace RelPath

/-- The last segments of a text are those of the path. -/
def Ends (p : RelPath) (text : List Char) : Prop :=
  segments p.chars <:+ segments text

instance (p : RelPath) (text : List Char) : Decidable (p.Ends text) :=
  inferInstanceAs (Decidable (_ <:+ _))

variable {p q : RelPath} {text : List Char}

/-- A path ends itself and what has it after a slash. -/
theorem ends_iff : p.Ends text ↔ text = p.chars ∨ ∃ before, text = before ++ '/' :: p.chars :=
  segments_isSuffix_segments_iff

/-- A path ends a text in the sense of the second stage. -/
theorem ends_iff_endsWithSegments : p.Ends text ↔ Vfs.endsWithSegments text p.chars = true := by
  rw [ends_iff, Vfs.endsWithSegments_iff]
  constructor
  · rintro (rfl | ⟨before, rfl⟩)
    · exact ⟨p.chars_ne_nil, [], rfl, .inl rfl⟩
    · exact ⟨p.chars_ne_nil, before ++ ['/'], by simp, .inr (.inr (by simp))⟩
  · rintro ⟨-, before, rfl, rfl | hhead | hlast⟩
    · exact .inl rfl
    · exact absurd hhead p.head?_chars
    · obtain ⟨dirs, rfl⟩ := List.getLast?_eq_some_iff.mp hlast
      exact .inr ⟨dirs, by simp⟩

theorem Ends.isSuffix (h : p.Ends text) : p.chars <:+ text := by
  rcases ends_iff.mp h with rfl | ⟨before, rfl⟩
  · exact List.suffix_rfl
  · exact (List.suffix_cons '/' p.chars).trans (List.suffix_append before _)

/-- Two paths of one length that end a text are the same. -/
theorem Ends.eq_of_length_eq (hp : p.Ends text) (hq : q.Ends text)
    (hlength : p.chars.length = q.chars.length) : p = q := by
  have hsuffix : p.chars <:+ q.chars :=
    List.suffix_of_suffix_length_le hp.isSuffix hq.isSuffix hlength.le
  exact ext_chars (hsuffix.eq_of_length hlength)

/-! ## Plain form -/

/-- A path still ends what is left after a cut behind a segment that no path has. -/
theorem Ends.of_append {before after : List Char} (h : p.Ends (before ++ '/' :: after))
    (hlast : isOrdinary (lastSegment before) = false) : p.Ends after := by
  rw [Ends, segments_append] at h
  obtain ⟨front, hfront⟩ := h
  rcases List.append_eq_append_iff.mp hfront with ⟨middle, hbefore, hpath⟩ | ⟨middle, -, hmiddle⟩
  · by_cases hnil : middle = []
    · rw [hnil, List.nil_append] at hpath
      rw [Ends, hpath]
    -- otherwise the segment before the cut is one of the path
    have hgetLast := getLast?_segments before
    rw [hbefore, List.getLast?_append_of_ne_nil front hnil] at hgetLast
    have hsegment : lastSegment before ∈ segments p.chars := by
      rw [hpath]
      exact List.mem_append_left _ (List.mem_of_getLast? hgetLast)
    rw [isOrdinary_of_mem_segments hsegment] at hlast
    cases hlast
  · exact ⟨middle, hmiddle.symm⟩

/-- A path still ends a text without its scheme. -/
theorem Ends.dropScheme (h : p.Ends text) : p.Ends (Vfs.dropScheme text) := by
  rw [Vfs.dropScheme]
  cases hrest : dropHead? "file://".toList text with
  | none => exact h
  | some rest =>
    rw [dropHead?_eq_some_iff.mp hrest] at h
    change p.Ends ("file:/".toList ++ '/' :: rest) at h
    exact h.of_append rfl

/-- A path still ends a text without its drive. -/
theorem Ends.dropDrive (h : p.Ends text) : p.Ends (Vfs.dropDrive text) := by
  rw [Vfs.dropDrive]
  split
  next hdrive =>
    rcases ends_iff.mp h with rfl | ⟨before, htext⟩
    · rw [chars, p.canonical.2.1] at hdrive
      cases hdrive
    -- the letter and the colon stand before the slash
    obtain ⟨c, rest, rfl, hc⟩ := hasDrive_iff.mp hdrive
    rcases before with - | ⟨_, - | ⟨_, before⟩⟩
    · cases (List.cons.inj htext).1
      cases hc
    · cases (List.cons.inj (List.cons.inj htext).2).1
    · exact ends_iff.mpr (.inr ⟨before, (List.cons.inj (List.cons.inj htext).2).2⟩)
  next => exact h

/-- A path still ends what follows a step out of a build directory. -/
theorem Ends.dropHop (h : p.Ends text) : p.Ends (Vfs.dropHop text) := by
  rw [Vfs.dropHop]
  cases hrest : afterLast? "/dist/../".toList text with
  | none => exact h
  | some rest =>
    obtain ⟨before, htext⟩ := eq_append_of_afterLast? hrest
    have hsplit : text = (before ++ "/dist/..".toList) ++ '/' :: rest := by
      rw [htext]
      simp
    rw [hsplit] at h
    refine h.of_append ?_
    rw [show before ++ "/dist/..".toList = (before ++ "/dist".toList) ++ '/' :: ['.', '.'] by simp,
      lastSegment_append]
    rfl

/-- A path still ends a request in plain form. -/
theorem Ends.normalizeRequest {request : List Char} (h : p.Ends (Vfs.slashed request)) :
    p.Ends (Vfs.normalizeRequest request) :=
  h.dropScheme.dropDrive.dropHop

/-- A path below a directory ends the request in plain form. -/
theorem ends_normalizeRequest (p : RelPath) (dir : String) :
    p.Ends (Vfs.normalizeRequest (dir ++ "/" ++ p.text).toList) := by
  have hslashed : Vfs.slashed (dir ++ "/" ++ p.text).toList =
      Vfs.slashed dir.toList ++ '/' :: p.chars := by
    have hbackslash : '\\' ∉ p.chars := p.canonical.1
    rw [String.toList_append, String.toList_append, List.append_assoc, Vfs.slashed_append,
      Vfs.slashed_append, ← chars, Vfs.slashed_of_not_mem hbackslash]
    rfl
  exact Ends.normalizeRequest (ends_iff.mpr (.inr ⟨_, hslashed⟩))

end RelPath

namespace Vfs

/-! ## The answer -/

/-- The longest path of embedded files that ends a text. -/
structure IsLongestEnding (vfs : Vfs) (text : List Char) (k : RelPath) : Prop where
  /-- The path is one of the files. -/
  mem : k ∈ vfs.paths
  /-- It ends the text. -/
  ends : k.Ends text
  /-- No path that ends the text is longer. -/
  longest : ∀ p ∈ vfs.paths, p.Ends text → p.chars.length ≤ k.chars.length

/-- The first path of embedded files that matches a plain request at the second stage. -/
structure IsFirstMatch (vfs : Vfs) (plain : List Char) (k : RelPath) : Prop where
  /-- The path is one of the files. -/
  mem : k ∈ vfs.paths
  /-- It matches. -/
  matchesSuffix : matchesSuffix plain k.chars = true
  /-- No path before it matches. -/
  first : ∀ p ∈ vfs.paths, p.text < k.text → Vfs.matchesSuffix plain p.chars = false

variable {vfs : Vfs} {plain : List Char} {p k : RelPath}

theorem isFirstMatch_iff : IsFirstMatch vfs plain k ↔
    (vfs.paths.find? fun p => matchesSuffix plain p.chars) = some k := by
  rw [find?_eq_some_iff_of_pairwise vfs.pairwise_paths]
  exact ⟨fun h => ⟨h.mem, h.matchesSuffix, h.first⟩, fun h => ⟨h.1, h.2.1, h.2.2⟩⟩

/-- There is only one first match. -/
theorem IsFirstMatch.unique (hp : IsFirstMatch vfs plain p) (hk : IsFirstMatch vfs plain k) :
    p = k :=
  Option.some.inj ((isFirstMatch_iff.mp hp).symm.trans (isFirstMatch_iff.mp hk))

/-- There is only one longest path that ends a text. -/
theorem IsLongestEnding.unique {text : List Char} (hp : IsLongestEnding vfs text p)
    (hk : IsLongestEnding vfs text k) : p = k :=
  hp.ends.eq_of_length_eq hk.ends
    (Nat.le_antisymm (hk.longest p hp.mem hp.ends) (hp.longest k hk.mem hk.ends))

/-- If some path ends a text, then one is the longest. -/
theorem exists_isLongestEnding {text : List Char} (hp : p ∈ vfs.paths) (hends : p.Ends text) :
    ∃ k, IsLongestEnding vfs text k := by
  have hmem {q : RelPath} : q ∈ vfs.paths.filter (fun q => decide (q.Ends text)) ↔
      q ∈ vfs.paths ∧ q.Ends text := by
    rw [List.mem_filter, decide_eq_true_iff]
  cases hlongest : (vfs.paths.filter fun q => decide (q.Ends text)).argmax (·.chars.length) with
  | none =>
    have hnone := List.argmax_eq_none.mp hlongest
    exact absurd (hmem.mpr ⟨hp, hends⟩) (hnone ▸ List.not_mem_nil)
  | some k =>
    have hk := hmem.mp (List.argmax_mem hlongest)
    exact ⟨k, hk.1, hk.2, fun q hq hqends => List.le_of_mem_argmax
      (f := fun r : RelPath => r.chars.length) (hmem.mpr ⟨hq, hqends⟩) hlongest⟩

/-- A path that ends a plain request matches it. -/
theorem matchesSuffix_of_ends (h : p.Ends plain) : matchesSuffix plain p.chars = true := by
  rw [matchesSuffix_eq]
  exact matchesBy_iff.mpr (.inl (RelPath.ends_iff_endsWithSegments.mp h))

/-- A request that is no path but matches one is answered by the first path that it matches. -/
theorem find?_of_matchesSuffix (hexact : ∀ q ∈ vfs.paths, q.chars ≠ plain) (hp : p ∈ vfs.paths)
    (hmatch : matchesSuffix plain p.chars = true) :
    ∃ hit, vfs.find? plain = some hit ∧ hit.stage = .suffix ∧
      vfs.get? hit.key.text = some hit.content ∧ IsFirstMatch vfs plain hit.key := by
  have hnone : (vfs.files.find? fun f => f.1.chars == plain) = none := by
    rw [List.find?_eq_none]
    intro f hf
    rw [beq_iff_eq]
    exact hexact f.1 (List.mem_map_of_mem hf)
  obtain ⟨f, hf, rfl⟩ := List.mem_map.mp hp
  have hsome : (vfs.files.find? fun f => matchesSuffix plain f.1.chars).isSome :=
    List.find?_isSome.mpr ⟨f, hf, hmatch⟩
  obtain ⟨g, hg⟩ := Option.isSome_iff_exists.mp hsome
  refine ⟨⟨g.1, g.2, .suffix⟩, ?_, rfl, mem_files_iff.mp (List.mem_of_find?_eq_some hg), ?_⟩
  · rw [find?, hnone, hg]
  · have hfirst : vfs.paths.find? (fun q => matchesSuffix plain q.chars) = some g.1 := by
      rw [find?_paths, hg]
      rfl
    exact isFirstMatch_iff.mpr hfirst

/-- A request that is no path but that a path ends, such as one for a path below a directory, is
answered at the second stage by the first path that matches it. This is the longest path that ends
the request exactly if no path before that one matches. -/
theorem lookup_of_ends (vfs : Vfs) (request : String)
    (hexact : ∀ p ∈ vfs.paths, p.chars ≠ normalizeRequest request.toList)
    (hends : ∃ p ∈ vfs.paths, p.Ends (normalizeRequest request.toList) ∨
      ∃ dir, request = dir ++ "/" ++ p.text) :
    ∃ hit, vfs.lookup request = .ok hit ∧ hit.stage = .suffix ∧
      vfs.get? hit.key.text = some hit.content ∧
      IsFirstMatch vfs (normalizeRequest request.toList) hit.key ∧
      ∃ longest,
        (∀ k, IsLongestEnding vfs (normalizeRequest request.toList) k ↔ k = longest) ∧
        (hit.key = longest ↔ ∀ p ∈ vfs.paths, p.text < longest.text →
          matchesSuffix (normalizeRequest request.toList) p.chars = false) := by
  obtain ⟨p, hp, hpends⟩ := hends
  have hplain : p.Ends (normalizeRequest request.toList) := by
    rcases hpends with h | ⟨dir, rfl⟩
    · exact h
    · exact p.ends_normalizeRequest dir
  -- a path that ends the request matches it, so there is a first one that does
  obtain ⟨hit, hfind, hstage, hcontent, hfirst⟩ :=
    find?_of_matchesSuffix hexact hp (matchesSuffix_of_ends hplain)
  obtain ⟨longest, hlongest⟩ := exists_isLongestEnding hp hplain
  refine ⟨hit, ?_, hstage, hcontent, hfirst, longest, fun k => ?_, ?_, ?_⟩
  · rw [lookup, hfind]
  · exact ⟨fun hk => hk.unique hlongest, fun hk => hk ▸ hlongest⟩
  · rintro rfl
    exact hfirst.first
  · intro hbefore
    exact hfirst.unique ⟨hlongest.mem, matchesSuffix_of_ends hlongest.ends, hbefore⟩

/-- A request for a file below a directory, where a shorter path that also ends the request comes
later in the order. -/
theorem lookup_of_ends_styles :
    ∃ vfs : Vfs, vfs.paths.map RelPath.text = ["a/b.css", "b.css"] ∧
      ∃ hit, vfs.lookup "/srv/a/b.css" = .ok hit ∧ hit.stage = .suffix ∧
        vfs.get? hit.key.text = some hit.content ∧
        IsFirstMatch vfs (normalizeRequest "/srv/a/b.css".toList) hit.key ∧
        ∃ longest,
          (∀ k, IsLongestEnding vfs (normalizeRequest "/srv/a/b.css".toList) k ↔ k = longest) ∧
          (hit.key = longest ↔ ∀ p ∈ vfs.paths, p.text < longest.text →
            matchesSuffix (normalizeRequest "/srv/a/b.css".toList) p.chars = false) :=
  ⟨⟨[(⟨"a/b.css", by decide⟩, "long"), (⟨"b.css", by decide⟩, "short")], by decide⟩, rfl,
    lookup_of_ends _ "/srv/a/b.css" (by decide)
      ⟨⟨"a/b.css", by decide⟩, List.mem_cons_self, .inr ⟨"/srv", by decide⟩⟩⟩

/-- The shorter of two paths that end the request comes first and is the answer. -/
theorem exists_lookup_ne_longest :
    ∃ (vfs : Vfs) (longest : RelPath), longest.text = "c/b.txt" ∧
      (∀ p ∈ vfs.paths, p.chars ≠ normalizeRequest "x/c/b.txt".toList) ∧
      IsLongestEnding vfs (normalizeRequest "x/c/b.txt".toList) longest ∧
      ∃ hit, vfs.lookup "x/c/b.txt" = .ok hit ∧ hit.key.text = "b.txt" ∧ hit.key ≠ longest := by
  refine ⟨⟨[(⟨"b.txt", by decide⟩, "short"), (⟨"c/b.txt", by decide⟩, "long")], by decide⟩,
    ⟨"c/b.txt", by decide⟩, rfl, by decide, ⟨by decide, by decide, by decide⟩,
    ⟨⟨"b.txt", by decide⟩, "short", .suffix⟩, ?_, rfl, by decide⟩
  decide

end Vfs

end EdgeBundle
