import EdgeBundle.Output.Format
import EdgeBundle.Proofs.Json.Rearrangement

/-!
# What a report tells

The two forms of JSON tell every value from every other. The form for reading sorts the members of
objects, which loses their order alone, but it does not escape strings either: a quote in a string,
followed by what stands between two strings, looks like the end of the one string and the start of
the other. The form tells values apart exactly where strings and keys cannot imitate either of the
two texts that stand between strings, the colon with a blank and the comma with a line break and
blanks.

## Main definitions

* `bare`: a string between quotes, with nothing escaped.
* `Imitates`: the characters from which a string can imitate the structure around it.
* `Guarded`: texts in front of whose quotes there is a character that no string has.

## Main statements

* `render_inj_iff`: which values the forms tell apart.
-/

namespace EdgeBundle.OutputFormat

open Json

variable {allowed : Char → Prop} {s t a b p : List Char}

/-! ## Strings that are not escaped -/

/-- A string as it is between two quotes. -/
def bare (s : String) : String :=
  "\"" ++ s ++ "\""

theorem toList_bare (s : String) : (bare s).toList = '"' :: (s.toList ++ ['"']) := by
  simp [bare]

/-- A string of these characters can hold what stands between two strings. -/
def Imitates (allowed : Char → Prop) : Prop :=
  allowed '"' ∧ allowed ' ' ∧ (allowed ':' ∨ allowed ',' ∧ allowed '\n')

/-- No string can hold the text up to one of its quotes. -/
def Guarded (allowed : Char → Prop) (a : List Char) : Prop :=
  ∀ p q, a = p ++ '"' :: q → ¬ (allowed '"' ∧ ∀ c ∈ p, allowed c)

/-- What stands in front of a quote includes a part that has none. -/
theorem exists_eq_append_of_not_mem {p' q : List Char} (hp : '"' ∉ p)
    (h : p ++ a = p' ++ '"' :: q) : ∃ r, p' = p ++ r ∧ a = r ++ '"' :: q := by
  rcases List.append_eq_append_iff.mp h with ⟨r, hr, ha⟩ | ⟨r, hr, hq⟩
  · exact ⟨r, hr, ha⟩
  · cases r with
    | nil => exact ⟨[], by rw [hr, List.append_nil, List.append_nil], hq.symm⟩
    | cons c r =>
      obtain rfl := (List.cons.inj hq).1
      exact absurd (hr ▸ List.mem_append_right _ List.mem_cons_self) hp

theorem guarded_nil : Guarded allowed [] := by
  intro p q h
  exact absurd h.symm (List.append_ne_nil_of_right_ne_nil _ (List.cons_ne_nil _ _))

theorem Guarded.append (hp : '"' ∉ p) (ha : Guarded allowed a) : Guarded allowed (p ++ a) := by
  rintro p' q h ⟨hquote, hall⟩
  obtain ⟨r, rfl, hr⟩ := exists_eq_append_of_not_mem hp h
  exact ha r q hr ⟨hquote, fun c hc => hall c (List.mem_append_right _ hc)⟩

/-- A part that no string can hold guards all that follows. -/
theorem guarded_append (hp : '"' ∉ p) (hblock : ¬ (allowed '"' ∧ ∀ c ∈ p, allowed c))
    (a : List Char) : Guarded allowed (p ++ a) := by
  rintro p' q h ⟨hquote, hall⟩
  obtain ⟨r, rfl, -⟩ := exists_eq_append_of_not_mem hp h
  exact hblock ⟨hquote, fun c hc => hall c (List.mem_append_left _ hc)⟩

theorem eq_nil_of_guarded (ha : Guarded allowed a) (hs : ∀ c ∈ s ++ p, allowed c)
    (h : '"' :: a = p ++ '"' :: b) : p = [] := by
  cases p with
  | nil => rfl
  | cons c p =>
    obtain ⟨rfl, hrest⟩ := List.cons.inj h
    exact absurd ⟨hs '"' (by simp), fun c hc => hs c (by simp [hc])⟩ (ha p b hrest)

/-- The end of a string can be told where the text after it is guarded. -/
theorem quote_append_inj (hs : ∀ c ∈ s, allowed c) (ht : ∀ c ∈ t, allowed c)
    (ha : Guarded allowed a) (hb : Guarded allowed b) (h : s ++ '"' :: a = t ++ '"' :: b) :
    s = t ∧ a = b := by
  rcases List.append_eq_append_iff.mp h with ⟨p, rfl, hp⟩ | ⟨p, rfl, hp⟩
  · obtain rfl := eq_nil_of_guarded ha ht hp
    exact ⟨(List.append_nil s).symm, (List.cons.inj hp).2⟩
  · obtain rfl := eq_nil_of_guarded hb hs hp
    exact ⟨List.append_nil t, (List.cons.inj hp).2.symm⟩

theorem bare_append_inj {s t : String} (hs : ∀ c ∈ s.toList, allowed c)
    (ht : ∀ c ∈ t.toList, allowed c) (ha : Guarded allowed a) (hb : Guarded allowed b)
    (h : (bare s).toList ++ a = (bare t).toList ++ b) : s = t ∧ a = b := by
  rw [toList_bare, toList_bare] at h
  simp only [List.cons_append, List.append_assoc, List.nil_append, List.cons.injEq, true_and] at h
  obtain ⟨hst, hab⟩ := quote_append_inj hs ht ha hb h
  exact ⟨String.toList_injective hst, hab⟩

/-! ## The form for reading -/

theorem render_pretty (v : Json) :
    (render .pretty false v).toList = (layoutWriter bare bare).text 0 v.canonical := rfl

theorem quote_not_mem_lineGap (level : ℕ) : '"' ∉ lineGap level := by
  intro h
  rcases lineGap_blank level '"' h with h | h
  · exact absurd h (by decide)
  · exact absurd h (by decide)

/-- Where strings cannot imitate what stands between them, the form can be read. -/
theorem readable_of_not_imitates (h : ¬ Imitates allowed) :
    (layoutWriter bare bare).Readable (fun s => ∀ c ∈ s.toList, allowed c) (Guarded allowed) where
  apart_nil := guarded_nil
  -- a string would have to contain the quote and what stands after it
  apart_comma level a := by
    have hspace : ' ' ∈ lineGap (level + 1) :=
      List.mem_cons_of_mem _ (List.mem_replicate.mpr ⟨by omega, rfl⟩)
    have hblock : ¬ (allowed '"' ∧ ∀ c ∈ ',' :: lineGap (level + 1), allowed c) := by
      rintro ⟨hquote, hall⟩
      exact h ⟨hquote, hall _ (List.mem_cons_of_mem _ hspace),
        .inr ⟨hall _ List.mem_cons_self, hall _ (List.mem_cons_of_mem _ List.mem_cons_self)⟩⟩
    apply guarded_append _ hblock
    rw [List.mem_cons, not_or]
    exact ⟨by decide, quote_not_mem_lineGap _⟩
  apart_close level a c hc ha := by
    have hbracket : '"' ∉ [c] := by
      rcases hc with rfl | rfl
      · decide
      · decide
    exact .append (quote_not_mem_lineGap level) (.append hbracket ha)
  gap_blank := lineGap_blank
  string_quote s := ⟨_, toList_bare s⟩
  key_quote s := ⟨_, toList_bare s⟩
  string_inj hs ht ha hb heq := bare_append_inj hs ht ha hb heq
  key_inj {s t a b} hs ht heq := by
    have hblock : ¬ (allowed '"' ∧ ∀ c ∈ [':', ' '], allowed c) := by
      rintro ⟨hquote, hall⟩
      exact h ⟨hquote, hall ' ' (by decide), .inl (hall ':' (by decide))⟩
    have hguard := guarded_append (by decide) hblock
    obtain ⟨hst, hab⟩ := bare_append_inj hs ht (hguard a) (hguard b) heq
    exact ⟨hst, List.append_cancel_left hab⟩

/-- Where strings cannot imitate what stands between them, the form tells values apart, but for the
order of members. -/
theorem rearranges_of_render_pretty (h : ¬ Imitates allowed) {v w : Json}
    (hv : v.DistinctKeys) (hw : w.DistinctKeys) (hv' : v.Spelled fun s => ∀ c ∈ s.toList, allowed c)
    (hw' : w.Spelled fun s => ∀ c ∈ s.toList, allowed c)
    (heq : render .pretty false v = render .pretty false w) : v.Rearranges w := by
  -- the text is that of the sorted values
  have htext := congrArg String.toList heq
  rw [render_pretty, render_pretty] at htext
  have hcanonical := Writer.text_inj 0 (readable_of_not_imitates h) (hv'.canonical hv)
    (hw'.canonical hw) htext
  exact rearranges_of_canonical_eq hv hw hcanonical

/-! ## Strings that imitate structure -/

/-- Two empty items. -/
def twoItems : Json :=
  .array [.string "", .string ""]

/-- One item that looks like two. -/
def oneItem : Json :=
  .array [.string "\",\n  \""]

/-- A member with an empty key. -/
def emptyKey : Json :=
  .object [("", .string "\": \"")]

/-- A member with an empty value. -/
def emptyValue : Json :=
  .object [("\": \"", .string "")]

theorem render_twoItems : render .pretty false twoItems = render .pretty false oneItem := by
  decide +kernel

theorem render_emptyKey : render .pretty false emptyKey = render .pretty false emptyValue := by
  decide +kernel

theorem not_rearranges_items : ¬ twoItems.Rearranges oneItem := by
  intro h
  cases h with
  | array hitems => exact nomatch hitems.length_eq

theorem not_rearranges_keys : ¬ emptyKey.Rearranges emptyValue := by
  intro h
  cases h with
  | object hperm hkeys hvalues =>
    obtain rfl := List.perm_singleton.mp hperm.symm
    exact absurd hkeys (by decide)

/-- Strings that can imitate what stands between them make two values look the same. -/
theorem exists_of_imitates (h : Imitates allowed) :
    ∃ v w : Json, v.DistinctKeys ∧ w.DistinctKeys ∧
      (v.Spelled fun s => ∀ c ∈ s.toList, allowed c) ∧
      (w.Spelled fun s => ∀ c ∈ s.toList, allowed c) ∧
      render .pretty false v = render .pretty false w ∧ ¬ v.Rearranges w := by
  have hempty : ∀ c ∈ "".toList, allowed c := nofun
  obtain ⟨hquote, hspace, hcolon | ⟨hcomma, hline⟩⟩ := h
  -- a key takes the place of a value, or an item that of two
  · have hcolons : ∀ c ∈ "\": \"".toList, allowed c := by simp [hquote, hspace, hcolon]
    refine ⟨emptyKey, emptyValue, ?_, ?_, ?_, ?_, render_emptyKey, not_rearranges_keys⟩
    · exact .object (by simp) (by simp [DistinctKeys.string])
    · exact .object (by simp) (by simp [DistinctKeys.string])
    · exact .object (List.forall_mem_singleton.mpr hempty)
        (List.forall_mem_singleton.mpr (.string hcolons))
    · exact .object (List.forall_mem_singleton.mpr hcolons)
        (List.forall_mem_singleton.mpr (.string hempty))
  · have hcommas : ∀ c ∈ "\",\n  \"".toList, allowed c := by simp [hquote, hspace, hcomma, hline]
    refine ⟨twoItems, oneItem, ?_, ?_, ?_, ?_, render_twoItems, not_rearranges_items⟩
    · exact .array (by simp [DistinctKeys.string])
    · exact .array (by simp [DistinctKeys.string])
    · exact .array (List.forall_mem_cons.mpr
        ⟨.string hempty, List.forall_mem_singleton.mpr (.string hempty)⟩)
    · exact .array (List.forall_mem_singleton.mpr (.string hcommas))

/-- JSON tells all values apart. The form for reading tells values with strings and keys of some
characters apart, but for the order of members, exactly if such strings cannot imitate what stands
between two strings. -/
theorem render_inj_iff (coloured : Bool) :
    Function.Injective (render .json coloured) ∧ Function.Injective (render .text coloured) ∧
    ∀ allowed : Char → Prop,
      (∀ v w : Json, v.DistinctKeys → w.DistinctKeys →
        (v.Spelled fun s => ∀ c ∈ s.toList, allowed c) →
        (w.Spelled fun s => ∀ c ∈ s.toList, allowed c) →
        render .pretty false v = render .pretty false w → v.Rearranges w) ↔
      ¬ (allowed '"' ∧ allowed ' ' ∧ (allowed ':' ∨ allowed ',' ∧ allowed '\n')) := by
  refine ⟨indented_injective, compact_injective, fun allowed => ⟨?_, ?_⟩⟩
  · intro htells himitates
    obtain ⟨v, w, hv, hw, hv', hw', heq, hne⟩ := exists_of_imitates himitates
    exact hne (htells v w hv hw hv' hw' heq)
  · intro h v w hv hw hv' hw' heq
    exact rearranges_of_render_pretty h hv hw hv' hw' heq

/-- Two members in one order or the other. -/
def twoMembers (first second : String) : Json :=
  .object [(first, .null), (second, .null)]

theorem render_inj_iff_members :
    render .pretty false (twoMembers "b" "a") = render .pretty false (twoMembers "a" "b") ∧
      (twoMembers "b" "a").Rearranges (twoMembers "a" "b") := by
  have heq : render .pretty false (twoMembers "b" "a") =
      render .pretty false (twoMembers "a" "b") := by decide +kernel
  have hdistinct : ∀ first second, first ≠ second → (twoMembers first second).DistinctKeys := by
    intro first second hne
    exact .object (by simpa using hne) (by simp [DistinctKeys.null])
  have hspelled : ∀ first second, (∀ c ∈ (first ++ second).toList, c ≠ '"') →
      (twoMembers first second).Spelled fun s => ∀ c ∈ s.toList, c ≠ '"' := by
    intro first second hall
    rw [String.toList_append, List.forall_mem_append] at hall
    exact .object (by simpa using hall) (by simp [Spelled.null])
  have hquote : ¬ (('"' : Char) ≠ '"' ∧ ' ' ≠ '"' ∧ (':' ≠ '"' ∨ ',' ≠ '"' ∧ '\n' ≠ '"')) :=
    fun h => h.1 rfl
  exact ⟨heq, ((render_inj_iff false).2.2 (· ≠ '"')).mpr hquote _ _
    (hdistinct "b" "a" (by decide)) (hdistinct "a" "b" (by decide))
    (hspelled "b" "a" (by simp)) (hspelled "a" "b" (by simp)) heq⟩

/-- The form for reading does not tell two items from one. -/
theorem exists_render_pretty_eq :
    ∃ v w : Json, v.DistinctKeys ∧ w.DistinctKeys ∧
      render .pretty false v = render .pretty false w ∧ ¬ v.Rearranges w :=
  ⟨twoItems, oneItem, .array (by simp [DistinctKeys.string]),
    .array (by simp [DistinctKeys.string]), render_twoItems, not_rearranges_items⟩

end EdgeBundle.OutputFormat
