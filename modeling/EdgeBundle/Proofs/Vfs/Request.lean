import EdgeBundle.Proofs.Path.Segments
import EdgeBundle.Proofs.Text.Search
import EdgeBundle.Proofs.Text.Width
import EdgeBundle.Proofs.Vfs.Keys
import EdgeBundle.Vfs.Lookup
import Mathlib.Data.List.Find

/-!
# Matching a request

A request is matched by one search over the paths in order: the first path that is the request, or
else the first one that matches it at the second stage, or else the first one with its file name.
The search is stated for any list of paths and any measure of their sizes.

## Main definitions

* `slashed`, `dropScheme` and `dropHop`: steps to the plain form, beside `dropDrive`.
* `matchesBy`: the second stage for a given measure of sizes.
* `keyBy`: the search over given paths.

## Main statements

* `endsWithSegments_iff`: what ends a text at the start of a segment.
* `matchesBy_iff_of_slash_not_mem`: a short name matches the requests for files of this name.
* `normalizeRequest_of_rooted`: requests in plain form.
* `key_lookup`: a request is answered by the first path that matches it.
-/

namespace EdgeBundle.Vfs

/-! ## Plain form -/

/-- Forward slashes for backslashes. -/
def slashed (cs : List Char) : List Char :=
  cs.map fun c => if c = '\\' then '/' else c

/-- What follows the scheme of a file URL, or else the whole text. -/
def dropScheme (cs : List Char) : List Char :=
  (dropHead? "file://".toList cs).getD cs

/-- What follows the last step out of a build directory, or else the whole text. -/
def dropHop (cs : List Char) : List Char :=
  (afterLast? "/dist/../".toList cs).getD cs

theorem normalizeRequest_eq (cs : List Char) :
    normalizeRequest cs = dropHop (dropDrive (dropScheme (slashed cs))) := rfl

theorem slashed_append (as bs : List Char) : slashed (as ++ bs) = slashed as ++ slashed bs :=
  List.map_append

/-- A text without backslashes has forward slashes already. -/
theorem slashed_of_not_mem {cs : List Char} (h : '\\' ∉ cs) : slashed cs = cs := by
  refine (List.map_congr_left fun c hc => if_neg ?_).trans (List.map_id _)
  rintro rfl
  exact h hc

theorem dropScheme_eq_self {cs : List Char} (h : ¬ "file://".toList <+: cs) :
    dropScheme cs = cs := by
  have hnone : dropHead? "file://".toList cs = none := by
    refine Option.eq_none_iff_forall_ne_some.mpr fun rest hrest => h ?_
    rw [dropHead?_eq_some_iff.mp hrest]
    exact List.prefix_append _ _
  rw [dropScheme, hnone, Option.getD_none]

/-- A text that starts with a slash has neither scheme nor drive. -/
theorem dropDrive_dropScheme_slash (cs : List Char) :
    dropDrive (dropScheme ('/' :: cs)) = '/' :: cs := by
  have hscheme : ¬ "file://".toList <+: '/' :: cs := by
    rintro ⟨rest, hrest⟩
    cases (List.cons.inj hrest).1
  have hdrive : RelPath.hasDrive ('/' :: cs) ≠ true := by
    rw [ne_eq, RelPath.hasDrive_iff]
    rintro ⟨c, rest, hcs, hc⟩
    obtain rfl := (List.cons.inj hcs).1
    cases hc
  rw [dropScheme_eq_self hscheme, dropDrive, if_neg hdrive]

/-- A text in which no segment leads up has no step out of a build directory. -/
theorem dropHop_of_up_not_mem {cs : List Char} (hup : ['.', '.'] ∉ segments cs) :
    dropHop cs = cs := by
  have hnone : afterLast? "/dist/../".toList cs = none := by
    rw [afterLast?_eq_none_iff]
    rintro ⟨before, after, rfl⟩
    have hsplit : before ++ "/dist/../".toList ++ after =
        (before ++ "/dist".toList) ++ '/' :: (['.', '.'] ++ '/' :: after) := by
      simp
    rw [hsplit, segments_append, segments_append] at hup
    exact hup (List.mem_append_right _ (List.mem_append_left _ List.mem_cons_self))
  rw [dropHop, hnone, Option.getD_none]

/-- A text that starts with a slash is in plain form if it has no backslash and no segment leads
up. -/
theorem normalizeRequest_of_rooted {cs : List Char} (hbackslash : '\\' ∉ cs)
    (hup : ['.', '.'] ∉ segments cs) : normalizeRequest ('/' :: cs) = '/' :: cs := by
  have hslashed : slashed ('/' :: cs) = '/' :: cs :=
    congrArg ('/' :: ·) (slashed_of_not_mem hbackslash)
  have hrooted : ['.', '.'] ∉ segments ('/' :: cs) := by
    rw [← List.nil_append ('/' :: cs), segments_append]
    simpa [segments] using hup
  rw [normalizeRequest_eq, hslashed, dropDrive_dropScheme_slash, dropHop_of_up_not_mem hrooted]

/-! ## Endings of paths -/

/-- What ends a text at the start of a segment. -/
theorem endsWithSegments_iff {text ending : List Char} :
    endsWithSegments text ending = true ↔ ending ≠ [] ∧ ∃ before, text = before ++ ending ∧
      (before = [] ∨ ending.head? = some '/' ∨ before.getLast? = some '/') := by
  have htake (before : List Char) :
      (before ++ ending).take ((before ++ ending).length - ending.length) = before := by
    rw [List.length_append, Nat.add_sub_cancel]
    exact List.take_left
  rw [endsWithSegments, Bool.and_eq_true, Bool.and_eq_true, List.isSuffixOf_iff_suffix, bne_iff_ne,
    and_assoc]
  refine and_congr_right fun _ => ?_
  constructor
  · rintro ⟨⟨before, rfl⟩, hstart⟩
    refine ⟨before, rfl, ?_⟩
    simpa [htake, or_assoc] using hstart
  · rintro ⟨before, rfl, hstart⟩
    refine ⟨List.suffix_append before ending, ?_⟩
    simpa [htake, or_assoc] using hstart

/-- A text has the last segment of what ends it. -/
theorem lastSegment_eq_of_endsWithSegments {text ending : List Char}
    (h : endsWithSegments text ending = true) : lastSegment text = lastSegment ending := by
  obtain ⟨-, before, rfl, rfl | hhead | hlast⟩ := endsWithSegments_iff.mp h
  · rfl
  · obtain ⟨rest, rfl⟩ := List.head?_eq_some_iff.mp hhead
    rw [lastSegment_append, ← List.nil_append ('/' :: rest), lastSegment_append]
  · obtain ⟨dirs, rfl⟩ := List.getLast?_eq_some_iff.mp hlast
    rw [List.append_assoc, List.singleton_append, lastSegment_append]

/-- The last segment ends a text. -/
theorem endsWithSegments_lastSegment {text : List Char} (h : lastSegment text ≠ []) :
    endsWithSegments text (lastSegment text) = true := by
  refine endsWithSegments_iff.mpr ⟨h, ?_⟩
  rcases eq_lastSegment_or text with htext | ⟨before, htext⟩
  · exact ⟨[], htext, .inl rfl⟩
  · exact ⟨before ++ ['/'], by simpa using htext, .inr (.inr (by simp))⟩

/-! ## The second stage -/

/-- Whether a path matches the plain request at the second stage if sizes are as given. -/
def matchesBy (size : List Char → Nat) (request key : List Char) : Bool :=
  endsWithSegments request key
    || (request.contains '/' && endsWithSegments key request)
    || (minContainedLength < size key && containsText key request)

section Matching

variable {size : List Char → Nat} {request key : List Char}

theorem matchesBy_iff : matchesBy size request key = true ↔
    endsWithSegments request key = true ∨
      ('/' ∈ request ∧ endsWithSegments key request = true) ∨
      (minContainedLength < size key ∧ key <:+: request) := by
  simp [matchesBy, or_assoc, containsText_iff]

/-- A match is by file name, or it is a long path that the request contains. -/
theorem lastSegment_eq_of_matchesBy (h : matchesBy size request key = true) :
    lastSegment key = lastSegment request ∨ minContainedLength < size key := by
  rcases matchesBy_iff.mp h with h | ⟨-, h⟩ | ⟨h, -⟩
  · exact .inl (lastSegment_eq_of_endsWithSegments h).symm
  · exact .inl (lastSegment_eq_of_endsWithSegments h)
  · exact .inr h

/-- A short name matches exactly the requests for files of this name. -/
theorem matchesBy_iff_of_slash_not_mem (hne : key ≠ []) (hslash : '/' ∉ key)
    (hsize : size key ≤ minContainedLength) :
    matchesBy size request key = true ↔ lastSegment request = key := by
  have hkey : lastSegment key = key := lastSegment_of_slash_not_mem hslash
  constructor
  · intro h
    rcases lastSegment_eq_of_matchesBy h with h | h
    · rw [← h, hkey]
    · omega
  · intro h
    subst h
    exact matchesBy_iff.mpr (.inl (endsWithSegments_lastSegment hne))

end Matching

/-! ## The search -/

/-- The path that answers a plain request among the given ones. -/
def keyBy (size : List Char → Nat) (keys : List RelPath) (request : List Char) : Option RelPath :=
  (keys.find? (·.chars == request)).or <|
    (keys.find? fun k => matchesBy size request k.chars).or <|
      if lastSegment request = [] then none
      else keys.find? fun k => lastSegment k.chars == lastSegment request

theorem find?_paths (vfs : Vfs) (test : RelPath → Bool) :
    vfs.paths.find? test = (vfs.files.find? fun f => test f.1).map Prod.fst :=
  List.find?_map

theorem matchesSuffix_eq (request key : List Char) :
    matchesSuffix request key = matchesBy utf8Width request key := by
  rw [matchesSuffix, matchesBy, utf8ByteSize_ofList]

theorem map_key_find? (vfs : Vfs) (request : List Char) :
    (vfs.find? request).map Hit.key = keyBy utf8Width vfs.paths request := by
  simp only [find?, keyBy, find?_paths, matchesSuffix_eq]
  cases vfs.files.find? fun f => f.1.chars == request with
  | some f => rfl
  | none =>
    cases vfs.files.find? fun f => matchesBy utf8Width request f.1.chars with
    | some f => rfl
    | none =>
      by_cases hname : lastSegment request = []
      · simp [hname]
      · simp only [hname, if_false, Option.map_none, Option.none_or, Option.map_map]
        rfl

theorem lookup_eq_ok_iff {vfs : Vfs} {request : String} {hit : Hit} :
    vfs.lookup request = .ok hit ↔ vfs.find? (normalizeRequest request.toList) = some hit := by
  rw [lookup]
  cases vfs.find? (normalizeRequest request.toList) <;> simp

/-- A request is answered by the first path that matches it. -/
theorem key_lookup (vfs : Vfs) (request : String) :
    (vfs.lookup request).toOption.map Hit.key =
      keyBy utf8Width vfs.paths (normalizeRequest request.toList) := by
  rw [← map_key_find?, lookup]
  cases vfs.find? (normalizeRequest request.toList) <;> rfl

/-! ## The first match among ascending paths -/

/-- The paths of embedded files ascend. -/
theorem pairwise_paths (vfs : Vfs) : vfs.paths.Pairwise fun a b => a.text < b.text :=
  List.pairwise_map.mpr vfs.sorted

/-- Among ascending paths the first one that passes a test is the least that does. -/
theorem find?_eq_some_iff_of_pairwise {keys : List RelPath} {test : RelPath → Bool} {k : RelPath}
    (h : keys.Pairwise fun a b => a.text < b.text) :
    keys.find? test = some k ↔
      k ∈ keys ∧ test k = true ∧ ∀ p ∈ keys, p.text < k.text → test p = false := by
  induction keys with
  | nil => simp
  | cons first keys ih =>
    obtain ⟨hfirst, hkeys⟩ := List.pairwise_cons.mp h
    rw [List.find?_cons]
    cases htest : test first with
    -- all others come after it
    | true =>
      constructor
      · rintro ⟨⟩
        refine ⟨List.mem_cons_self, htest, fun p hp hlt => ?_⟩
        rcases List.mem_cons.mp hp with rfl | hp
        · exact absurd hlt (String.lt_irrefl _)
        · exact absurd hlt (String.lt_asymm (hfirst p hp))
      · rintro ⟨hk, -, hleast⟩
        rcases List.mem_cons.mp hk with rfl | hk
        · rfl
        · rw [hleast first List.mem_cons_self (hfirst k hk)] at htest
          cases htest
    | false =>
      rw [ih hkeys, List.mem_cons, List.forall_mem_cons]
      constructor
      · rintro ⟨hk, hpass, hleast⟩
        exact ⟨.inr hk, hpass, fun _ => htest, hleast⟩
      · rintro ⟨rfl | hk, hpass, -, hleast⟩
        · rw [htest] at hpass
          cases hpass
        · exact ⟨hk, hpass, hleast⟩

end EdgeBundle.Vfs
