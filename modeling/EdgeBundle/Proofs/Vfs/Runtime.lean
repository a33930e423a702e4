import EdgeBundle.Proofs.Text.Utf16
import EdgeBundle.Proofs.Vfs.Request
import Mathlib.Data.List.DropRight
import Mathlib.Data.List.Sort

/-!
# Requests at run time

The bundle answers requests itself, from the object that holds the embedded files. It searches as
the lookup does, but an object lists its keys in an order of its own, array indices first, and a
text has its length in UTF-16 code units.

## Main definitions

* `Runtime.keys`: the keys of the object in their order.
* `Runtime.resolve?`: the path that answers a request at run time.
* `Runtime.IsIndex`: paths that are array indices of the object.

## Main statements

* `Runtime.resolve?_eq`: at run time the same search goes over the keys, with other lengths.
* `Runtime.IsIndex.matchesBy_iff`: an array index matches the requests for files of this name.
* `Runtime.mem_keys_iff`: which paths are keys.
-/

namespace EdgeBundle.Vfs

namespace Runtime

/-- The code unit of a slash. -/
def slash : Nat := 0x2F

/-- Whether a text ends with `suffix` at the start of a segment. -/
def endsWithSegment (haystack suffix : List Nat) : Bool :=
  let start := haystack.length - suffix.length
  suffix != [] && suffix.isSuffixOf haystack &&
    (start == 0 || suffix.head? == some slash || haystack[start - 1]? == some slash)

/-- What follows the last slash. -/
def fileName (path : List Nat) : List Nat :=
  path.rtakeWhile (· != slash)

/-- Whether a key matches the plain request at the second stage. -/
def matchesSuffix (path key : List Nat) : Bool :=
  endsWithSegment path key
    || (path.contains slash && endsWithSegment key path)
    || (minContainedLength < key.length && decide (key <:+: path))

/-- The number that a key is as an array index: a decimal without needless zeros, and small
enough. -/
def arrayIndex? (key : List Char) : Option Nat :=
  let n := key.foldl (fun n c => 10 * n + (c.toNat - '0'.toNat)) 0
  if n < 0xFFFFFFFF ∧ Nat.toDigits 10 n = key then some n else none

/-- The paths that are keys of the object that holds the files. A property that is written with the
name `__proto__` is no key, but the prototype. -/
def ownPaths (vfs : Vfs) : List RelPath :=
  vfs.paths.filter fun p => p.text != "__proto__"

/-- The keys that are array indices, in ascending order. -/
def indexKeys (vfs : Vfs) : List RelPath :=
  ((ownPaths vfs).filter fun p => (arrayIndex? p.chars).isSome).insertionSort
    fun p q => (arrayIndex? p.chars).getD 0 ≤ (arrayIndex? q.chars).getD 0

/-- The keys of the object: array indices come first, and then all others as they are written. -/
def keys (vfs : Vfs) : List RelPath :=
  indexKeys vfs ++ (ownPaths vfs).filter fun p => (arrayIndex? p.chars).isNone

/-- The path that answers a request at run time. -/
def resolve? (vfs : Vfs) (request : String) : Option RelPath :=
  let path := utf16 (normalizeRequest request.toList)
  let name := fileName path
  ((keys vfs).find? fun k => utf16 k.chars == path).or <|
    ((keys vfs).find? fun k => matchesSuffix path (utf16 k.chars)).or <|
      if name = [] then none else (keys vfs).find? fun k => fileName (utf16 k.chars) == name

/-! ## Texts as code units -/

theorem slash_mem_utf16_iff {cs : List Char} : slash ∈ utf16 cs ↔ '/' ∈ cs := by
  have hinside : utf16 ['/'] <:+: utf16 cs ↔ ['/'] <:+: cs := utf16_isInfix_iff
  rwa [← List.singleton_infix_iff, ← List.singleton_infix_iff]

theorem head?_utf16_iff {cs : List Char} :
    (utf16 cs).head? = some slash ↔ cs.head? = some '/' := by
  have hstarts : utf16 ['/'] <+: utf16 cs ↔ ['/'] <+: cs := utf16_isPrefix_iff
  rwa [← List.singleton_prefix_iff_head?_eq_some, ← List.singleton_prefix_iff_head?_eq_some]

theorem getLast?_utf16_iff {cs : List Char} :
    (utf16 cs).getLast? = some slash ↔ cs.getLast? = some '/' := by
  have hsuffix : utf16 ['/'] <:+ utf16 cs ↔ ['/'] <:+ cs := utf16_isSuffix_iff
  rwa [← List.singleton_suffix_iff_getLast?_eq_some, ← List.singleton_suffix_iff_getLast?_eq_some]

/-- What ends a text at the start of a segment. -/
theorem endsWithSegment_iff {haystack suffix : List Nat} :
    endsWithSegment haystack suffix = true ↔ suffix ≠ [] ∧ ∃ before, haystack = before ++ suffix ∧
      (before = [] ∨ suffix.head? = some slash ∨ before.getLast? = some slash) := by
  -- the unit before the suffix is the last one of what comes before
  have hbefore (before : List Nat) : (before ++ suffix).length - suffix.length = before.length := by
    rw [List.length_append, Nat.add_sub_cancel]
  have hlast {before : List Nat} (hne : before ≠ []) :
      (before ++ suffix)[before.length - 1]? = before.getLast? := by
    have := List.length_pos_iff.mpr hne
    rw [List.getElem?_append_left (by omega), List.getLast?_eq_getElem?]
  rw [endsWithSegment, Bool.and_eq_true, Bool.and_eq_true, List.isSuffixOf_iff_suffix, bne_iff_ne,
    and_assoc]
  refine and_congr_right fun _ => ?_
  constructor
  · rintro ⟨⟨before, rfl⟩, hstart⟩
    refine ⟨before, rfl, ?_⟩
    rcases eq_or_ne before [] with rfl | hne
    · exact .inl rfl
    · simpa [hbefore, hlast hne, or_assoc] using hstart
  · rintro ⟨before, rfl, hstart⟩
    refine ⟨List.suffix_append before suffix, ?_⟩
    rcases eq_or_ne before [] with rfl | hne
    · simp
    · simpa [hbefore, hlast hne, or_assoc] using hstart

theorem endsWithSegment_utf16 (text ending : List Char) :
    endsWithSegment (utf16 text) (utf16 ending) = endsWithSegments text ending := by
  rw [Bool.eq_iff_iff, endsWithSegment_iff, endsWithSegments_iff, Ne, utf16_eq_nil_iff]
  refine and_congr_right fun _ => ?_
  constructor
  · rintro ⟨units, htext, hstart⟩
    -- the suffix does not start inside a character, so the characters are cut there as well
    obtain ⟨before, rest, rfl, rfl, hrest⟩ := exists_append_of_utf16_eq htext
      fun u hu => not_isTrailing_head_utf16 hu
    obtain rfl := utf16_injective hrest
    exact ⟨before, rfl, by rwa [utf16_eq_nil_iff, head?_utf16_iff, getLast?_utf16_iff] at hstart⟩
  · rintro ⟨before, rfl, hstart⟩
    refine ⟨utf16 before, utf16_append before ending, ?_⟩
    rwa [utf16_eq_nil_iff, head?_utf16_iff, getLast?_utf16_iff]

theorem fileName_append {before name : List Nat} (h : slash ∉ name) :
    fileName (before ++ slash :: name) = name := by
  have hname : ∀ u ∈ name.reverse, (u != slash) = true := by
    intro u hu
    rw [bne_iff_ne]
    rintro rfl
    exact h (List.mem_reverse.mp hu)
  rw [fileName, List.rtakeWhile, List.reverse_append, List.reverse_cons, List.append_assoc,
    List.takeWhile_append_of_pos hname]
  simp

theorem fileName_utf16 (cs : List Char) : fileName (utf16 cs) = utf16 (lastSegment cs) := by
  have hslash : slash ∉ utf16 (lastSegment cs) :=
    mt slash_mem_utf16_iff.mp (slash_not_mem_lastSegment cs)
  rcases eq_lastSegment_or cs with hcs | ⟨before, hcs⟩
  -- the text is its last segment, or a slash comes before that
  · rw [← hcs] at hslash ⊢
    refine List.rtakeWhile_eq_self_iff.mpr fun u hu => ?_
    rw [bne_iff_ne]
    rintro rfl
    exact hslash hu
  · have hunits : utf16 cs = utf16 before ++ slash :: utf16 (lastSegment cs) := by
      rw [hcs, utf16_append, ← hcs]
      rfl
    rw [hunits, fileName_append hslash]

theorem matchesSuffix_utf16 (path key : List Char) :
    matchesSuffix (utf16 path) (utf16 key) = matchesBy utf16Width path key := by
  have hslash : (utf16 path).contains slash = path.contains '/' := by
    rw [Bool.eq_iff_iff, List.contains_iff_mem, List.contains_iff_mem, slash_mem_utf16_iff]
  have hinside : decide (utf16 key <:+: utf16 path) = containsText key path := by
    rw [Bool.eq_iff_iff, decide_eq_true_eq, containsText_iff, utf16_isInfix_iff]
  rw [matchesSuffix, matchesBy, utf16Width, endsWithSegment_utf16, endsWithSegment_utf16, hslash,
    hinside]

/-- At run time the same search goes over the keys of the object, with lengths in code units. -/
theorem resolve?_eq (vfs : Vfs) (request : String) :
    resolve? vfs request =
      keyBy utf16Width (keys vfs) (normalizeRequest request.toList) := by
  have hbeq (s t : List Char) : (utf16 s == utf16 t) = (s == t) := by
    rw [Bool.eq_iff_iff, beq_iff_eq, beq_iff_eq]
    exact ⟨utf16_injective, congrArg utf16⟩
  simp only [resolve?, keyBy, hbeq, matchesSuffix_utf16, fileName_utf16, utf16_eq_nil_iff]

/-! ## Array indices -/

/-- The path is an array index of the object. -/
def IsIndex (p : RelPath) : Prop :=
  (arrayIndex? p.chars).isSome = true

/-- An array index is the decimal of its number. -/
theorem IsIndex.exists_toDigits {p : RelPath} (h : IsIndex p) :
    ∃ n < 10000000000, p.chars = Nat.toDigits 10 n := by
  obtain ⟨n, hn⟩ := Option.isSome_iff_exists.mp h
  rw [arrayIndex?, Option.ite_none_right_eq_some] at hn
  exact ⟨_, Nat.lt_of_lt_of_le hn.1.1 (by decide), hn.1.2.symm⟩

theorem IsIndex.isDigit {p : RelPath} (h : IsIndex p) {c : Char} (hc : c ∈ p.chars) :
    c.isDigit = true := by
  obtain ⟨n, -, hchars⟩ := h.exists_toDigits
  rw [hchars] at hc
  exact Nat.isDigit_of_mem_toDigits (by decide) (by decide) hc

theorem IsIndex.slash_not_mem {p : RelPath} (h : IsIndex p) : '/' ∉ p.chars := by
  intro hslash
  cases h.isDigit hslash

/-- An array index is short. -/
theorem IsIndex.utf8Width_le {p : RelPath} (h : IsIndex p) :
    utf8Width p.chars ≤ minContainedLength := by
  have hdigits (cs : List Char) (hcs : ∀ c ∈ cs, c.isDigit = true) : utf8Width cs = cs.length := by
    induction cs with
    | nil => rfl
    | cons c cs ih =>
      rw [List.forall_mem_cons] at hcs
      have hc : c.utf8Size = 1 := by
        have hval : 48 ≤ c.toNat ∧ c.toNat ≤ 57 := by
          simpa [Char.isDigit, UInt32.le_iff_toNat_le] using hcs.1
        exact Char.utf8Size_eq_one_iff.mpr (UInt32.le_iff_toNat_le.mpr (hval.2.trans (by decide)))
      rw [utf8Width_cons, hc, ih hcs.2, List.length_cons, Nat.add_comm]
  obtain ⟨n, hlt, hchars⟩ := h.exists_toDigits
  rw [hdigits _ fun c hc => h.isDigit hc, hchars, minContainedLength]
  exact (Nat.length_toDigits_le_iff (by decide) (by decide)).mpr hlt

/-- An array index answers exactly the requests for files of this name. -/
theorem IsIndex.matchesBy_iff {p : RelPath} (h : IsIndex p) {size : List Char → Nat}
    (hsize : size p.chars ≤ utf8Width p.chars) {request : List Char} :
    matchesBy size request p.chars = true ↔ lastSegment request = p.chars :=
  matchesBy_iff_of_slash_not_mem p.chars_ne_nil h.slash_not_mem (hsize.trans h.utf8Width_le)

/-! ## Keys of the object -/

theorem mem_ownPaths_iff {vfs : Vfs} {p : RelPath} :
    p ∈ ownPaths vfs ↔ p ∈ vfs.paths ∧ p.text ≠ "__proto__" := by
  rw [ownPaths, List.mem_filter, bne_iff_ne]

theorem mem_indexKeys_iff {vfs : Vfs} {p : RelPath} :
    p ∈ indexKeys vfs ↔ p ∈ ownPaths vfs ∧ IsIndex p := by
  rw [indexKeys, List.mem_insertionSort, List.mem_filter, IsIndex]

theorem mem_keys_iff {vfs : Vfs} {p : RelPath} :
    p ∈ keys vfs ↔ p ∈ vfs.paths ∧ p.text ≠ "__proto__" := by
  rw [keys, List.mem_append, mem_indexKeys_iff, List.mem_filter, IsIndex, ← mem_ownPaths_iff]
  cases arrayIndex? p.chars <;> simp

end Runtime

end EdgeBundle.Vfs
