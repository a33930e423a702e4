import EdgeBundle.Proofs.Token.Extent
import EdgeBundle.Proofs.Token.Single

/-!
# Shapes of tokens

The text of a token has the lexical shape of the class of the token. A string is enclosed in its
quotes, a part of a template literal and a regular expression end at the first text that can end
them, an identifier takes all characters that go on with it, and a punctuator is the longest one
that starts where it does.

## Main definitions

* `StartsWithPunct`: a punctuator of more than one character at the start of a text.
* `Shape`: the shape of a token of a class before other text.

## Main statements

* `longPunct?_eq_some_iff`: the punctuator that the lexer looks up is the longest one.
* `tokenize_hasShapes`: every token of an accepted source has the shape of its class.
-/

namespace EdgeBundle.Lexer

/-- The text starts with the punctuator. A question mark and a point before a digit are two tokens.
-/
structure StartsWithPunct (p : String) (cs : List Char) : Prop where
  /-- The characters of the punctuator come first. -/
  isPrefix : p.toList <+: cs
  /-- The point is not that of a number. -/
  not_number : p = "?." → ∀ d ∈ (cs.drop 2).head?, d.isDigit = false

/-- The shape that a token has before the text `after`, by the class of the token. -/
inductive Shape (after : List Char) : TokenKind → List Char → Prop
  | str {quote : Char} {body : List Char} (hquote : quote = '\'' ∨ quote = '"')
      (hbody : Unstopped (stringStops quote) body) : Shape after .str (quote :: (body ++ [quote]))
  | template {kind : TokenKind} {opening : Char} {body closing : List Char}
      (hopening : opening = '`' ∨ opening = '}') (hclosing : TemplateEnd kind closing)
      (hbody : Unstopped templateStops body) : Shape after kind (opening :: (body ++ closing))
  | regex {body flags : List Char} (hbody : RegexText body)
      (hflags : ∀ d ∈ flags, isIdentPart d = true) (hafter : EndsName after) :
      Shape after .regex ('/' :: (body ++ '/' :: flags))
  -- the rules for the characters of numbers are not part of their shape
  | number {c : Char} {cs : List Char}
      (hc : c.isDigit = true ∨ (c = '.' ∧ (cs ++ after).head?.any Char.isDigit = true)) :
      Shape after .number (c :: cs)
  | ident {c : Char} {cs : List Char} (hc : c = '#' ∨ isIdentStart c = true)
      (hcs : ∀ d ∈ cs, isIdentPart d = true) (hafter : EndsName after) :
      Shape after .ident (c :: cs)
  | longPunct {p : String} (hp : p ∈ longPuncts) (hstarts : StartsWithPunct p (p.toList ++ after))
      (hlongest : ∀ q ∈ longPuncts, StartsWithPunct q (p.toList ++ after) → q.length ≤ p.length) :
      Shape after .punct p.toList
  | mark {c : Char} (hshort : ∀ q ∈ longPuncts, ¬ StartsWithPunct q (c :: after)) :
      Shape after .punct [c]

/-! ## The longest punctuator -/

theorem pairwise_longPuncts : longPuncts.Pairwise fun p q => q.length ≤ p.length := by
  decide +kernel

/-- Nothing longer starts with a question mark and a point. -/
theorem eq_of_take_longPuncts :
    ∀ q ∈ longPuncts, q.toList.take 2 = ['?', '.'] → q = "?." := by
  decide +kernel

theorem two_le_length_longPuncts : ∀ q ∈ longPuncts, 2 ≤ q.toList.length := by
  decide +kernel

section Puncts

variable {cs : List Char} {p : String}

/-- The point after a question mark belongs to a number. -/
theorem not_startsWithPunct_iff {q : String} (h : q.toList <+: cs) :
    ¬ StartsWithPunct q cs ↔ q = "?." ∧ ((cs.drop 2).head?.any Char.isDigit) = true := by
  constructor
  · intro hnot
    by_contra hpoint
    apply hnot
    refine ⟨h, ?_⟩
    rintro rfl d hd
    by_contra hdigit
    apply hpoint
    exact ⟨rfl, by rw [hd]; simpa using hdigit⟩
  · rintro ⟨rfl, hdigit⟩ hstarts
    obtain ⟨d, hd, hisDigit⟩ := (Option.any_eq_true _ _).mp hdigit
    rw [hstarts.not_number rfl d hd] at hisDigit
    cases hisDigit

/-- A punctuator is found if it starts the text and none before it in the list does. -/
theorem longPunct?_eq_some (h : longPunct? cs = some p) :
    p ∈ longPuncts ∧ StartsWithPunct p cs ∧
      ∀ q ∈ longPuncts, StartsWithPunct q cs → q.length ≤ p.length := by
  obtain ⟨hfind, hpoint⟩ := Option.filter_eq_some_iff.mp h
  obtain ⟨hstarts, longer, shorter, hlist, hlonger⟩ := List.find?_eq_some_iff_append.mp hfind
  have hstarts' : p.toList <+: cs := List.isPrefixOf_iff_prefix.mp hstarts
  have hmem : p ∈ longPuncts := List.mem_of_find?_eq_some hfind
  refine ⟨hmem, ?_, ?_⟩
  · by_contra hnot
    obtain ⟨rfl, hdigit⟩ := (not_startsWithPunct_iff hstarts').mp hnot
    rw [hdigit] at hpoint
    cases hpoint
  · intro q hq hqstarts
    -- those before it in the list do not start the text, and those after it are not longer
    have hsorted := pairwise_longPuncts
    rw [hlist] at hq hsorted
    rcases List.mem_append.mp hq with hq | hq
    · have hnot := hlonger q hq
      rw [List.isPrefixOf_iff_prefix.mpr hqstarts.isPrefix] at hnot
      cases hnot
    · rcases List.mem_cons.mp hq with rfl | hq
      · exact Nat.le_refl _
      · exact List.rel_of_pairwise_cons (List.pairwise_append.mp hsorted).2.1 hq

theorem not_startsWithPunct_of_longPunct? (h : longPunct? cs = none) :
    ∀ q ∈ longPuncts, ¬ StartsWithPunct q cs := by
  intro q hq hstarts
  cases hfind : longPuncts.find? fun p => p.toList.isPrefixOf cs with
  | none =>
    have hnot := List.find?_eq_none.mp hfind q hq
    exact hnot (List.isPrefixOf_iff_prefix.mpr hstarts.isPrefix)
  | some p =>
    -- what is found and left out again is a question mark and a point before a digit
    have hfound := List.find?_some hfind
    have hp : p.toList <+: cs := List.isPrefixOf_iff_prefix.mp hfound
    rw [longPunct?, hfind, Option.filter_some] at h
    obtain ⟨rfl, hdigit⟩ : p = "?." ∧ (cs.drop 2).head?.any Char.isDigit = true := by
      simpa using h
    have hpoint : ¬ StartsWithPunct "?." cs := (not_startsWithPunct_iff hp).mpr ⟨rfl, hdigit⟩
    have htake : q.toList.take 2 = ['?', '.'] := by
      obtain ⟨rest, rfl⟩ := hp
      have htake := hstarts.isPrefix
      rw [List.prefix_iff_eq_take] at htake
      rw [htake, List.take_take, Nat.min_eq_left (two_le_length_longPuncts q hq)]
      rfl
    rw [eq_of_take_longPuncts q hq htake] at hstarts
    exact hpoint hstarts

/-- The punctuator that the lexer looks up is the longest one that starts the text. -/
theorem longPunct?_eq_some_iff :
    longPunct? cs = some p ↔ p ∈ longPuncts ∧ StartsWithPunct p cs ∧
      ∀ q ∈ longPuncts, StartsWithPunct q cs → q.length ≤ p.length := by
  constructor
  · exact longPunct?_eq_some
  · rintro ⟨hp, hstarts, hlongest⟩
    cases hfound : longPunct? cs with
    | none => exact absurd hstarts (not_startsWithPunct_of_longPunct? hfound p hp)
    | some q =>
      obtain ⟨hq, hqstarts, hqlongest⟩ := longPunct?_eq_some hfound
      -- two texts of one length at the same place are the same
      have hlength : q.toList.length = p.toList.length :=
        Nat.le_antisymm (hlongest q hq hqstarts) (hqlongest p hp hstarts)
      rw [String.toList_injective (List.prefix_of_prefix_length_le hqstarts.isPrefix
        hstarts.isPrefix hlength.le |>.eq_of_length hlength)]

end Puncts

/-! ## Shapes of lexemes -/

/-- What the lexer reads as a punctuator is the longest one at its place, or a single character. -/
theorem shape_punct (c : Char) (cs : List Char) :
    Shape (cs.drop (punctLength (c :: cs))) .punct (c :: cs.take (punctLength (c :: cs))) := by
  cases hfound : longPunct? (c :: cs) with
  | none =>
    have hlength : punctLength (c :: cs) = 0 := by rw [punctLength, hfound]; rfl
    rw [hlength, List.take_zero, List.drop_zero]
    exact .mark (not_startsWithPunct_of_longPunct? hfound)
  | some p =>
    obtain ⟨hp, hstarts, hlongest⟩ := longPunct?_eq_some hfound
    have hlength : punctLength (c :: cs) + 1 = p.toList.length := by
      have htwo := two_le_length_longPuncts p hp
      rw [punctLength, hfound, Option.map_some, Option.getD_some, String.length_toList] at *
      omega
    have htext : c :: cs.take (punctLength (c :: cs)) = p.toList := by
      rw [← List.take_succ_cons, hlength]
      exact (List.prefix_iff_eq_take.mp hstarts.isPrefix).symm
    have hsource : p.toList ++ cs.drop (punctLength (c :: cs)) = c :: cs := by
      rw [← htext, List.cons_append, List.take_append_drop]
    rw [htext]
    refine .longPunct hp ?_ ?_
    · rwa [hsource]
    · rwa [hsource]

/-- What the lexer reads has the shape of its class. -/
theorem LexemeAt.shape {ctx : Context} {c : Char} {cs : List Char} {kind : TokenKind} {more : Nat}
    (h : LexemeAt ctx c cs ⟨some kind, more⟩) : Shape (cs.drop more) kind (c :: cs.take more) := by
  cases h with
  | str hc hn =>
    obtain ⟨body, rest, rfl, rfl, hbody⟩ := (stringLength_eq_some_iff hc).mp hn
    rw [← Nat.add_zero (0 + _), take_append_cons, List.take_zero]
    exact .str hc hbody
  | template hc hn =>
    obtain ⟨body, closing, rest, hclosing, rfl, rfl, hbody⟩ := templateLength_eq_some_iff.mp hn
    rw [← List.append_assoc, List.take_left' (by simp)]
    refine .template ?_ hclosing hbody
    rcases hc with rfl | ⟨rfl, -⟩
    · exact .inl rfl
    · exact .inr rfl
  | regex hc _ _ hn =>
    obtain ⟨body, rest, rfl, rfl, hbody⟩ := regexLength_eq_some_iff.mp hn
    rw [drop_append_cons, take_append_cons, ← List.drop_drop, drop_append_cons, hc]
    refine .regex hbody ?_ ?_
    · intro d hd
      exact isIdentPart_of_mem_take hd
    · exact isIdentPart_drop_identLength rest
  | number hc =>
    apply Shape.number
    rwa [List.take_append_drop]
  | ident hc =>
    refine .ident hc ?_ ?_
    · intro d hd
      exact isIdentPart_of_mem_take hd
    · exact isIdentPart_drop_identLength cs
  | punct => exact shape_punct c cs

/-! ## Shapes of the tokens of a source -/

/-- The token stands in the source at its offset and has the shape of its class there. -/
def HasShape (src : List Char) (t : Token) : Prop :=
  ∃ before after, src = before ++ (t.text.toList ++ after) ∧ utf8Width before = t.start ∧
    Shape after t.kind t.text.toList

/-- Every token of an accepted source has the shape of its class. -/
theorem tokenize_hasShapes {src : String} {ts : List Token} (h : tokenize src = .ok ts) :
    ∀ t ∈ ts, HasShape src.toList t := by
  intro t ht
  obtain ⟨ctx, before, c, rest, more, hsrc, hstart, hl, htext⟩ :=
    exists_lexemeAt_of_tokenize h ht
  refine ⟨before, rest.drop more, ?_, hstart.symm, ?_⟩
  · rw [htext, List.cons_append, List.take_append_drop, hsrc]
  · rw [htext]
    exact hl.shape

/-- Escapes, a class with a slash in it, a question mark before a number and dollar signs. -/
def mixedSource : String :=
  "#é>>>='\\'\\é'?.5:/[/]\\//gé`\\$\x7b$$\x7ba\x7d`"

/-- The tokens of `mixedSource`. -/
def mixedTokens : List Token :=
  [⟨.ident, 0, "#é"⟩, ⟨.punct, 3, ">>>="⟩, ⟨.str, 7, "'\\'\\é'"⟩, ⟨.punct, 14, "?"⟩,
    ⟨.number, 15, ".5"⟩, ⟨.punct, 17, ":"⟩, ⟨.regex, 18, "/[/]\\//gé"⟩,
    ⟨.templateHead, 28, "`\\$\x7b$$\x7b"⟩, ⟨.ident, 35, "a"⟩, ⟨.template, 36, "\x7d`"⟩]

/-- Tokens of all classes with the shapes of their classes. -/
theorem tokenize_hasShapes_mixed :
    tokenize mixedSource = .ok mixedTokens ∧ ∀ t ∈ mixedTokens, HasShape mixedSource.toList t := by
  have h : tokenize mixedSource = .ok mixedTokens := by decide +kernel
  exact ⟨h, tokenize_hasShapes h⟩

end EdgeBundle.Lexer
