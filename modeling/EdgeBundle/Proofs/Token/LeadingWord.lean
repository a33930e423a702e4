import EdgeBundle.Proofs.Token.Enclosed

/-!
# Words at the start of a source

A word says something about what follows only if it is a keyword before an operand or one before the
head of a statement. Any two other words are read alike before the same text, and putting one in
front of a text that does not go on with it leaves the tokens of the text as they are, unless the
text starts with a regular expression.

## Main definitions

* `PlainWord`: words that say nothing about what follows.

## Main statements

* `PlainWord.scans_iff`: a run that starts with a plain word.
* `exists_tokenize_of_plainWord`: two plain words before the same text.
* `exists_tokenize_plainWord_append`: a plain word before a text.
-/

namespace EdgeBundle.Lexer

/-- The text is an identifier. -/
def IsName (word : List Char) : Prop :=
  ∃ c cs, word = c :: cs ∧ isIdentStart c = true ∧ ∀ d ∈ cs, isIdentPart d = true

/-- A word that says nothing about a slash or parenthesis after it. -/
structure PlainWord (word : List Char) : Prop where
  /-- It is an identifier. -/
  isName : IsName word
  /-- A slash after it is a division. -/
  not_operand : String.ofList word ∉ operandKeywords
  /-- A parenthesis after it opens no head of a statement. -/
  not_head : String.ofList word ∉ headKeywords

/-- The token of a word. -/
def wordToken (start : Nat) (word : List Char) : Token :=
  ⟨.ident, start, String.ofList word⟩

/-- Characters that go on with identifiers, up to the end of the identifier. -/
theorem identLength_append_of_all {cs rest : List Char} (hcs : ∀ d ∈ cs, isIdentPart d = true)
    (hrest : EndsName rest) : identLength (cs ++ rest) = cs.length := by
  rw [hrest.identLength_append, identLength, List.takeWhile_eq_self_iff.mpr hcs]

theorem isName_of_all {c : Char} {cs : List Char} (hc : isIdentStart c = true)
    (hcs : cs.all isIdentPart = true) : IsName (c :: cs) :=
  ⟨c, cs, rfl, hc, List.all_eq_true.mp hcs⟩

/-- A blank adds no tokens. -/
theorem scans_blank_iff {ctx : Context} {offset : Nat} {cs : List Char} {ts : List Token} :
    Scans ctx offset (' ' :: cs) ts ↔ Scans ctx (offset + 1) cs ts := by
  refine ⟨fun h => ?_, .blank⟩
  cases h with
  | gap hl hrest =>
    cases hl.unique (.blank rfl)
    exact hrest
  | token hl => cases hl.unique (.blank rfl)

namespace IsName

variable {word : List Char}

theorem newline_not_mem (h : IsName word) : '\n' ∉ word := by
  obtain ⟨c, cs, rfl, hc, hcs⟩ := h
  rw [List.mem_cons, not_or]
  constructor
  · rintro rfl
    cases hc
  · intro hmem
    cases hcs '\n' hmem

theorem hashbangLength_append (h : IsName word) (rest : List Char) :
    hashbangLength (word ++ rest) = 0 := by
  obtain ⟨c, cs, rfl, hc, -⟩ := h
  rw [hashbangLength_eq, if_neg]
  intro hbang
  have hhead := (List.cons_prefix_cons.mp (List.isPrefixOf_iff_prefix.mp hbang)).1
  rw [← hhead] at hc
  cases hc

/-- A run that starts with an identifier. -/
theorem scans_iff (h : IsName word) {ctx : Context} {offset : Nat} {rest : List Char}
    {ts : List Token} (hrest : EndsName rest) :
    Scans ctx offset (word ++ rest) ts ↔ ∃ us, ts = wordToken offset word :: us ∧
      Scans (ctx.push (wordToken offset word)) (offset + utf8Width word) rest us := by
  obtain ⟨c, cs, rfl, hc, hcs⟩ := h
  have hl : LexemeAt ctx c (cs ++ rest) ⟨some .ident, cs.length⟩ := by
    rw [← identLength_append_of_all hcs hrest]
    exact .ident (.inr hc)
  constructor
  · intro hrun
    rw [List.cons_append] at hrun
    cases hrun with
    | gap hl' => cases hl'.unique hl
    | token hl' ht hrun =>
      cases hl'.unique hl
      rw [List.take_left] at ht hrun
      rw [List.drop_left] at hrun
      subst ht
      exact ⟨_, rfl, hrun⟩
  · rintro ⟨us, rfl, hrun⟩
    exact .read hl hrun

/-- A source that starts with an identifier. -/
theorem tokenize_iff (h : IsName word) {rest : List Char} {ts : List Token}
    (hrest : EndsName rest) :
    tokenize (String.ofList (word ++ rest)) = .ok ts ↔ ∃ us, ts = wordToken 0 word :: us ∧
      Scans (Context.push {} (wordToken 0 word)) (utf8Width word) rest us := by
  rw [tokenize_eq_ok_iff, String.toList_ofList, h.hashbangLength_append, List.take_zero,
    List.drop_zero, h.scans_iff hrest, utf8Width_nil, Nat.zero_add]

end IsName

namespace PlainWord

variable {word word' : List Char}

/-- What a plain word says about what follows. -/
theorem push_says (h : PlainWord word) (ctx : Context) (start : Nat) :
    (ctx.push (wordToken start word)).allowsRegex = false ∧
      (ctx.push (wordToken start word)).opensHead = false ∧
        (wordToken start word).isWord "for" = false := by
  have hawait : (wordToken start word).isWord "await" = false := by
    refine Bool.eq_false_iff.mpr fun hawait => h.not_operand ?_
    have htext : String.ofList word = "await" := (Token.isWord_iff.mp hawait).2
    rw [htext]
    decide
  refine ⟨?_, ?_, ?_⟩
  · simpa [Context.allowsRegex, Context.push, wordToken] using h.not_operand
  · simp only [Context.opensHead, Context.push, hawait, Bool.false_eq_true, if_false]
    simpa [wordToken] using h.not_head
  · refine Bool.eq_false_iff.mpr fun hfor => h.not_head ?_
    have htext : String.ofList word = "for" := (Token.isWord_iff.mp hfor).2
    rw [htext]
    decide

/-- Plain words leave contexts alike. -/
theorem alike_push (h : PlainWord word) (h' : PlainWord word') (ctx : Context)
    (start start' : Nat) :
    Alike (ctx.push (wordToken start word)) (ctx.push (wordToken start' word')) := by
  obtain ⟨hregex, hhead, hfor⟩ := h.push_says ctx start
  obtain ⟨hregex', hhead', hfor'⟩ := h'.push_says ctx start'
  refine ⟨⟨hregex.trans hregex'.symm, hhead.trans hhead'.symm, ?_⟩, fun _ => rfl, fun _ => rfl⟩
  simpa [Context.push] using hfor.trans hfor'.symm

/-- At the start of a source a slash is the first one of a comment or of a regular expression. -/
theorem kind_of_slash_at_start {cs : List Char} {kind : TokenKind} {more : Nat}
    (h : LexemeAt {} '/' cs ⟨some kind, more⟩) : kind = .regex := by
  cases h with
  | str hc => simp at hc
  | template hc => simp at hc
  | regex => rfl
  | number hc => simp at hc
  | ident hc => rcases hc with hc | hc <;> cases hc
  | punct hc => cases (hc.divides rfl).2.2

/-- What is read at the start of a source is read after a plain word, unless it starts with a
regular expression. -/
theorem exists_scans (h : PlainWord word) {offset : Nat} {cs : List Char} {ts : List Token}
    (hrun : Scans {} offset cs ts) (hfirst : ∀ t ∈ ts.head?, t.kind ≠ .regex) (start : Nat)
    {pre pre' : List Char} (hoffset : offset = utf8Width pre)
    (hlines : pre.count '\n' = pre'.count '\n') :
    ∃ us, Scans (Context.push {} (wordToken start word)) (utf8Width pre') cs us ∧
      List.Forall₂ (Token.SameLine (pre ++ cs) (pre' ++ cs)) ts us := by
  generalize hctx : ({} : Context) = ctx at hrun
  -- gaps leave the context empty; from the first token on the contexts are alike
  induction hrun generalizing pre pre' with
  | done => exact ⟨[], .done, .nil⟩
  | @gap ctx offset c cs more ts hl _ ih =>
    subst hctx
    obtain ⟨us, hus, hsame⟩ := @ih hfirst (pre ++ (c :: cs.take more)) (pre' ++ (c :: cs.take more))
      (by rw [hoffset, utf8Width_append]) (by rw [List.count_append, List.count_append, hlines]) rfl
    rw [append_take_append_drop, append_take_append_drop] at hsame
    rw [utf8Width_append] at hus
    exact ⟨us, .gap (hl.of_ne_slash (fun _ => rfl) rfl) hus, hsame⟩
  | @token ctx offset c cs kind more t ts hl ht hrest =>
    subst hctx ht hoffset
    have hslash : c ≠ '/' := by
      rintro rfl
      exact hfirst _ rfl (kind_of_slash_at_start hl)
    obtain ⟨-, hhead, hfor⟩ := h.push_says {} start
    have hfor' : ((Context.push {} (wordToken start word)).tokens.head?.any
        fun t => t.isWord "for") = false := by simpa [Context.push] using hfor
    have halike := @Alike.push_of_opensHead {} _ hfor'.symm hhead.symm (fun _ => rfl) (fun _ => rfl)
      ⟨kind, utf8Width pre, String.ofList (c :: cs.take more)⟩ (utf8Width pre')
    obtain ⟨us, hus, hsame⟩ := @Scans.exists_sameLine _ _ _ _ _ hrest halike
      (pre ++ (c :: cs.take more)) (pre' ++ (c :: cs.take more)) (by rw [utf8Width_append])
      (by rw [List.count_append, List.count_append, hlines])
    rw [append_take_append_drop, append_take_append_drop] at hsame
    rw [utf8Width_append] at hus
    exact ⟨_, .token (hl.of_ne_slash (fun hc => absurd hc hslash) rfl) rfl hus,
      .cons ⟨⟨rfl, fun _ _ => rfl⟩, lineAt_append_of_count hlines _ _⟩ hsame⟩

end PlainWord

section Sources

variable {word word' rest : List Char} {ts : List Token}

/-- Before the same text one plain word may stand in the place of another: the tokens of the text
are the same, on the same lines. -/
theorem exists_tokenize_of_plainWord (hword : PlainWord word) (hword' : PlainWord word')
    (hrest : EndsName rest) (h : tokenize (String.ofList (word ++ rest)) = .ok ts) :
    ∃ us us', ts = wordToken 0 word :: us ∧
      tokenize (String.ofList (word' ++ rest)) = .ok (wordToken 0 word' :: us') ∧
      List.Forall₂ (Token.SameLine (word ++ rest) (word' ++ rest)) us us' := by
  obtain ⟨us, rfl, hrun⟩ := (hword.isName.tokenize_iff hrest).mp h
  have hlines : word.count '\n' = word'.count '\n' := by
    rw [List.count_eq_zero.mpr hword.isName.newline_not_mem,
      List.count_eq_zero.mpr hword'.isName.newline_not_mem]
  obtain ⟨us', hrun', hsame⟩ :=
    hrun.exists_sameLine (hword.alike_push hword' {} _ 0) rfl hlines
  exact ⟨us, us', rfl, (hword'.isName.tokenize_iff hrest).mpr ⟨us', rfl, hrun'⟩, hsame⟩

/-- A plain word in front of a text that does not go on with it leaves the tokens of the text as
they are, unless the first one is a regular expression. -/
theorem exists_tokenize_plainWord_append (hword : PlainWord word) (hrest : EndsName rest)
    (hbang : ¬ ['#', '!'] <+: rest) (hfirst : ∀ t ∈ ts.head?, t.kind ≠ .regex)
    (h : tokenize (String.ofList rest) = .ok ts) :
    ∃ us, tokenize (String.ofList (word ++ rest)) = .ok (wordToken 0 word :: us) ∧
      List.Forall₂ (Token.SameLine rest (word ++ rest)) ts us := by
  have hline : hashbangLength rest = 0 := by
    rw [hashbangLength_eq, if_neg (mt List.isPrefixOf_iff_prefix.mp hbang)]
  rw [tokenize_eq_ok_iff, String.toList_ofList, hline, List.take_zero, List.drop_zero] at h
  have hcount : ([] : List Char).count '\n' = word.count '\n' := by
    rw [List.count_nil, List.count_eq_zero.mpr hword.isName.newline_not_mem]
  obtain ⟨us, hrun, hsame⟩ := hword.exists_scans h hfirst 0 rfl hcount
  exact ⟨us, (hword.isName.tokenize_iff hrest).mpr ⟨us, rfl, hrun⟩, hsame⟩

/-! ## First tokens -/

theorem isName_take {c : Char} {cs : List Char} (hc : isIdentStart c = true) :
    IsName (c :: cs.take (identLength cs)) :=
  ⟨c, _, rfl, hc, fun _ hd => isIdentPart_of_mem_take hd⟩

/-- A source that starts with a letter starts with a word. -/
theorem exists_word_of_isIdentStart {c : Char} {cs : List Char} (hc : isIdentStart c = true)
    (h : tokenize (String.ofList (c :: cs)) = .ok ts) :
    ∃ us, ts = wordToken 0 (c :: cs.take (identLength cs)) :: us := by
  have hsplit : c :: cs = (c :: cs.take (identLength cs)) ++ cs.drop (identLength cs) := by
    rw [List.cons_append, List.take_append_drop]
  rw [hsplit, (isName_take hc).tokenize_iff (isIdentPart_drop_identLength cs)] at h
  obtain ⟨us, rfl, -⟩ := h
  exact ⟨us, rfl⟩

/-- A source that starts with a digit starts with a number. -/
theorem exists_number_of_isDigit {c : Char} {cs : List Char} (hc : c.isDigit = true)
    (h : tokenize (String.ofList (c :: cs)) = .ok ts) :
    ∃ t us, ts = t :: us ∧ t.kind = .number ∧ t.start = 0 := by
  have hline : hashbangLength (c :: cs) = 0 := by
    rw [hashbangLength_eq, if_neg]
    intro hbang
    have hhead := (List.cons_prefix_cons.mp (List.isPrefixOf_iff_prefix.mp hbang)).1
    rw [← hhead] at hc
    cases hc
  rw [tokenize_eq_ok_iff, String.toList_ofList, hline, List.take_zero, List.drop_zero] at h
  cases h with
  | gap hl => cases hl.unique (.number (.inl hc))
  | token hl ht =>
    cases hl.unique (.number (.inl hc))
    subst ht
    exact ⟨_, _, rfl, rfl, rfl⟩

end Sources

end EdgeBundle.Lexer
