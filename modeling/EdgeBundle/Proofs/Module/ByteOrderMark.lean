import EdgeBundle.Proofs.Module.Reading
import EdgeBundle.Proofs.Token.LeadingWord

/-!
# Byte order marks

A byte order mark counts as a letter. In front of a source it makes one word of itself and of the
word or digits that the source starts with, and this word is no keyword. So a statement at the very
start of the source is not found, and no error tells of it. Any other source is linked as it is
without the mark, unless its first token is a regular expression, a number or a keyword that says
what a slash or parenthesis after it is.

## Main definitions

* `marked`: a source with a byte order mark before it.
* `BearsMark`: tokens that are the same behind a byte order mark.

## Main statements

* `agree_marked_word`: a byte order mark takes the first word in.
* `ofSource_marked`: sources with a byte order mark.
-/

namespace EdgeBundle.LinkedModule

open Lexer Statement

/-- U+FEFF -/
def byteOrderMark : Char := '\ufeff'

/-- The source with a byte order mark before it. -/
def marked (src : List Char) : String :=
  String.ofList (byteOrderMark :: src)

/-- No keyword starts with a byte order mark. -/
theorem mark_not_mem {keywords : List String}
    (h : keywords.all (·.toList.head? != some byteOrderMark) = true) (word : List Char) :
    String.ofList (byteOrderMark :: word) ∉ keywords := by
  intro hmem
  have hne := List.all_eq_true.mp h _ hmem
  rw [String.toList_ofList] at hne
  simp at hne

theorem plainWord_mark {word : List Char} (hword : ∀ d ∈ word, isIdentPart d = true) :
    PlainWord (byteOrderMark :: word) where
  isName := ⟨byteOrderMark, word, rfl, by decide, hword⟩
  not_operand := mark_not_mem (by decide) word
  not_head := mark_not_mem (by decide) word

section Marked

variable {config : Config} {path : RelPath} {src : List Char} {ts : List Token}

/-- The word of a byte order mark is stepped over. -/
theorem outline_mark (start : Nat) (word : List Char) (ts : List Token) :
    outline false (wordToken start (byteOrderMark :: word) :: ts) = outline false ts :=
  outline_cons_of_ne_punct (by simp [wordToken]) (mark_not_mem (by decide) word)

/-- A byte order mark makes one word of itself and of the word or digits that the source starts
with. The source is linked as if any other word stood there. -/
theorem agree_marked_word :
    Agree SameLinks (ofSource config path (marked src)).result
      (ofSource config path (String.ofList ('_' :: src.drop (identLength src)))).result := by
  have hmark : PlainWord (byteOrderMark :: src.take (identLength src)) :=
    plainWord_mark fun _ hd => isIdentPart_of_mem_take hd
  have hword : PlainWord ['_'] :=
    ⟨⟨'_', [], rfl, by decide, by simp⟩, by decide, by decide⟩
  have hrest : EndsName (src.drop (identLength src)) := isIdentPart_drop_identLength src
  have hsrc : byteOrderMark :: src = byteOrderMark :: src.take (identLength src) ++
      src.drop (identLength src) := by
    rw [List.cons_append, List.take_append_drop]
  have houtline (ts : List Token) :
      outline false (wordToken 0 ['_'] :: ts) = outline false ts :=
    outline_cons_of_ne_punct (by simp [wordToken]) (by decide)
  rw [marked, hsrc]
  refine ofSource_agree (fun ts hts => ?_) fun ts hts => ?_
  · obtain ⟨us, us', rfl, hus', hsame⟩ := exists_tokenize_of_plainWord hmark hword hrest hts
    refine ⟨_, hus', ?_⟩
    rw [SameStatements, outline_mark, houtline, String.toList_ofList, String.toList_ofList]
    exact sameStatements_of_forall₂ hsame
  · obtain ⟨us, us', -, hus', -⟩ := exists_tokenize_of_plainWord hword hmark hrest hts
    exact ⟨_, hus'⟩

/-- The source does not start with a regular expression, and its first word is neither a number nor
a keyword that starts a statement or says what a slash or parenthesis after it is. -/
def BearsMark (ts : List Token) : Prop :=
  ∀ t ∈ ts.head?, t.kind ≠ .regex ∧
    (t.start = 0 → t.kind ≠ .number ∧ t.text ∉ operandKeywords ++ headKeywords ++ keywords)

instance (ts : List Token) : Decidable (BearsMark ts) :=
  inferInstanceAs (Decidable (∀ t ∈ ts.head?, t.kind ≠ .regex ∧
    (t.start = 0 → t.kind ≠ .number ∧ t.text ∉ operandKeywords ++ headKeywords ++ keywords)))

/-- Behind a first word that says nothing about what follows the tokens are the same with a byte
order mark before the word. -/
theorem exists_tokenize_marked_word {c : Char} {cs : List Char} {t : Token}
    (hc : isIdentStart c = true) (hts : tokenize (String.ofList (c :: cs)) = .ok (t :: ts))
    (htext : t.text ∉ operandKeywords ++ headKeywords) :
    ∃ word us, t.text = String.ofList word ∧ t.kind = .ident ∧
      tokenize (marked (c :: cs)) = .ok (wordToken 0 (byteOrderMark :: word) :: us) ∧
      List.Forall₂ (Token.SameLine (c :: cs) (byteOrderMark :: c :: cs)) ts us := by
  obtain ⟨_, hts'⟩ := exists_word_of_isIdentStart hc hts
  obtain ⟨rfl, rfl⟩ := List.cons.inj hts'
  rw [List.mem_append, not_or] at htext
  have hword : PlainWord (c :: cs.take (identLength cs)) := ⟨isName_take hc, htext.1, htext.2⟩
  have hmark : PlainWord (byteOrderMark :: c :: cs.take (identLength cs)) :=
    plainWord_mark fun d hd => by
      rcases List.mem_cons.mp hd with rfl | hd
      · rw [isIdentPart, hc, Bool.true_or]
      · exact isIdentPart_of_mem_take hd
  have hsrc : c :: cs = (c :: cs.take (identLength cs)) ++ cs.drop (identLength cs) := by
    rw [List.cons_append, List.take_append_drop]
  rw [hsrc] at hts
  obtain ⟨us, us', heq, hus', hsame⟩ :=
    exists_tokenize_of_plainWord hword hmark (isIdentPart_drop_identLength cs) hts
  obtain ⟨-, rfl⟩ := List.cons.inj heq
  simp only [List.cons_append, List.take_append_drop] at hus' hsame
  exact ⟨_, us', rfl, rfl, hus', hsame⟩

/-- Behind a byte order mark the same statements stand on the lines on which they were. -/
theorem exists_tokenize_marked (hbang : ¬ ['#', '!'] <+: src)
    (hts : tokenize (String.ofList src) = .ok ts) (h : BearsMark ts) :
    ∃ us, tokenize (marked src) = .ok us ∧
      SameStatements src (byteOrderMark :: src) ts us := by
  -- the mark is a word of its own, or the start of the word or number that the source starts with
  by_cases hend : EndsName src
  · have hfirst : ∀ t ∈ ts.head?, t.kind ≠ .regex := fun t ht => (h t ht).1
    obtain ⟨us, hus, hsame⟩ := exists_tokenize_plainWord_append
      (@plainWord_mark [] (by simp)) hend hbang hfirst hts
    refine ⟨_, hus, ?_⟩
    rw [SameStatements, outline_mark]
    exact sameStatements_of_forall₂ hsame
  cases src with
  | nil => exact absurd (by simp [EndsName]) hend
  | cons c cs =>
    have hpart : isIdentPart c = true := by
      by_contra hpart
      exact hend (endsName_cons (Bool.eq_false_iff.mpr hpart))
    rw [isIdentPart, Bool.or_eq_true] at hpart
    rcases hpart with hc | hc
    · obtain ⟨us, rfl⟩ := exists_word_of_isIdentStart hc hts
      have htext := ((h _ rfl).2 rfl).2
      rw [List.mem_append, not_or] at htext
      obtain ⟨word, us', -, -, hus', hsame⟩ := exists_tokenize_marked_word hc hts htext.1
      refine ⟨_, hus', ?_⟩
      rw [SameStatements, outline_mark,
        outline_cons_of_ne_punct (by simp [wordToken]) htext.2]
      exact sameStatements_of_forall₂ hsame
    · obtain ⟨t, us, rfl, hkind, hstart⟩ := exists_number_of_isDigit hc hts
      exact absurd hkind ((h t rfl).2 hstart).1

/-- A source without keywords is linked, and exports and refers to nothing. -/
theorem exists_ofSource_of_isKeyword_eq_false {src : String} (hts : tokenize src = .ok ts)
    (hkey : ∀ t ∈ ts, isKeyword t = false) :
    ∃ m, (ofSource config path src).result = .ok m ∧ m.exports = [] ∧ m.references = [] := by
  refine ⟨_, result_ofSource_eq_ok_iff.mpr ⟨[], result_effectsOf_eq_ok_iff.mpr
    ⟨ts, hts, ?_, ?_⟩, rfl⟩, rfl, rfl⟩
  · rw [outline_eq_nil hkey]
  · rw [outline_eq_nil hkey]
    exact .nil

/-- A byte order mark hides a keyword at the very start of a source. -/
theorem exists_ofSource_marked_of_isKeyword {t : Token}
    (hts : tokenize (String.ofList src) = .ok (t :: ts)) (hstart : t.start = 0)
    (hkey : isKeyword t = true) (hrest : ∀ u ∈ ts, isKeyword u = false) :
    ∃ m, (ofSource config path (marked src)).result = .ok m ∧ m.exports = [] ∧
      m.references = [] := by
  obtain ⟨-, before, c, cs, more, hsrc, hbefore, -, htext⟩ :=
    exists_lexemeAt_of_tokenize hts List.mem_cons_self
  obtain rfl : before = [] := utf8Width_eq_zero_iff.mp (hbefore.symm.trans hstart)
  rw [String.toList_ofList, List.nil_append] at hsrc
  subst hsrc
  have hkeyword := (isKeyword_iff.mp hkey).2
  have hc : isIdentStart c = true := by
    have hall : keywords.all (·.toList.head?.any isIdentStart) = true := by decide
    have hstarts := List.all_eq_true.mp hall _ hkeyword
    rwa [htext] at hstarts
  have hplain : t.text ∉ operandKeywords ++ headKeywords := by
    have hall : keywords.all (· ∉ operandKeywords ++ headKeywords) = true := by decide
    exact of_decide_eq_true (List.all_eq_true.mp hall _ hkeyword)
  obtain ⟨word, us, -, -, hus, hsame⟩ := exists_tokenize_marked_word hc hts hplain
  refine exists_ofSource_of_isKeyword_eq_false hus fun u hu => ?_
  rcases List.mem_cons.mp hu with rfl | hu
  · exact Bool.eq_false_iff.mpr fun h => mark_not_mem (by decide) word (isKeyword_iff.mp h).2
  · obtain ⟨u', hu', hsame⟩ := exists_mem_of_forall₂ hsame.flip hu
    rw [← isKeyword_eq (R := Token.SameLine _ _) (fun _ _ h => h.readsAs) hsame]
    exact hrest u' hu'

end Marked

/-- A byte order mark makes one word of itself and of the word or digits that a source starts with,
so that the source is linked as if a word that is no keyword stood there. A source that starts with
neither a regular expression nor a number nor a keyword is linked as it is without the mark. But a
statement at the very start of a source is lost: without other keywords the module exports and
refers to nothing, and there is no error. -/
theorem ofSource_marked (config : Config) (path : RelPath) (src : List Char)
    (hbang : ¬ ['#', '!'] <+: src) :
    Agree SameLinks (ofSource config path (marked src)).result
      (ofSource config path (String.ofList ('_' :: src.drop (identLength src)))).result ∧
    (∀ ts, tokenize (String.ofList src) = .ok ts → BearsMark ts →
      Agree SameLinks (ofSource config path (String.ofList src)).result
        (ofSource config path (marked src)).result) ∧
    (∀ t ts, tokenize (String.ofList src) = .ok (t :: ts) → t.start = 0 → isKeyword t = true →
      (∀ u ∈ ts, isKeyword u = false) →
        ∃ m, (ofSource config path (marked src)).result = .ok m ∧ m.exports = [] ∧
          m.references = []) := by
  refine ⟨agree_marked_word, fun ts hts hmark => ?_, fun t ts hts hstart hkey hrest =>
    exists_ofSource_marked_of_isKeyword hts hstart hkey hrest⟩
  refine ofSource_agree (fun us hus => ?_) fun _ _ => ⟨ts, hts⟩
  obtain rfl : us = ts := Except.ok.inj (hus.symm.trans hts)
  obtain ⟨us', hus', hsame⟩ := exists_tokenize_marked hbang hts hmark
  refine ⟨us', hus', ?_⟩
  rwa [marked, String.toList_ofList, String.toList_ofList]

/-- A byte order mark before a comment. -/
theorem ofSource_marked_comment :
    ∃ src m m', src = "// a\nimport './b.mjs';".toList ∧ ¬ ['#', '!'] <+: src ∧
      (ofSource {} ⟨"a.mjs", by decide⟩ (String.ofList src)).result = .ok m ∧
      (ofSource {} ⟨"a.mjs", by decide⟩ (marked src)).result = .ok m' ∧ SameLinks m m' ∧
      m.references = [⟨"./b.mjs", "b.mjs", .atLoad, 2⟩] := by
  have hbang : ¬ ['#', '!'] <+: "// a\nimport './b.mjs';".toList := by decide
  have hmark : (tokenize (String.ofList "// a\nimport './b.mjs';".toList)).toOption.all
      (BearsMark ·) = true := by decide +kernel
  have hok : ((ofSource {} ⟨"a.mjs", by decide⟩
      (String.ofList "// a\nimport './b.mjs';".toList)).result.toOption.map
        LinkedModule.references) = some [⟨"./b.mjs", "b.mjs", .atLoad, 2⟩] := by decide +kernel
  obtain ⟨m, hm, hreferences⟩ := exists_eq_ok_of_map hok
  obtain ⟨ts, hts⟩ := exists_tokenize_of_result hm
  rw [hts] at hmark
  obtain ⟨-, hagree, -⟩ := ofSource_marked {} ⟨"a.mjs", by decide⟩ _ hbang
  obtain ⟨m', hm', hsame⟩ := (hagree ts hts (of_decide_eq_true hmark)).exists_eq_ok hm
  exact ⟨_, m, m', rfl, hbang, hm, hm', hsame, hreferences⟩

/-- A byte order mark before an import hides it. -/
theorem ofSource_marked_import :
    ∃ src m m', src = "import './b.mjs';".toList ∧ ¬ ['#', '!'] <+: src ∧
      (ofSource {} ⟨"a.mjs", by decide⟩ (String.ofList src)).result = .ok m ∧
      (ofSource {} ⟨"a.mjs", by decide⟩ (marked src)).result = .ok m' ∧
      m.references = [⟨"./b.mjs", "b.mjs", .atLoad, 1⟩] ∧ m'.references = [] := by
  have hok : ((ofSource {} ⟨"a.mjs", by decide⟩
      (String.ofList "import './b.mjs';".toList)).result.toOption.map
        LinkedModule.references) = some [⟨"./b.mjs", "b.mjs", .atLoad, 1⟩] := by decide +kernel
  have hmarked : ((ofSource {} ⟨"a.mjs", by decide⟩
      (marked "import './b.mjs';".toList)).result.toOption.map
        LinkedModule.references) = some [] := by decide +kernel
  obtain ⟨m, hm, hreferences⟩ := exists_eq_ok_of_map hok
  obtain ⟨m', hm', hnone⟩ := exists_eq_ok_of_map hmarked
  exact ⟨_, m, m', rfl, by decide, hm, hm', hreferences, hnone⟩

end EdgeBundle.LinkedModule
