import EdgeBundle.Proofs.Token.Template

/-!
# Slashes

A slash that starts no comment starts a regular expression or is a division. The lexer decides this
by the token before it. After a closing parenthesis it looks at one bit that it has kept since the
matching parenthesis, so what decides is the tokens before that one. The name of a property is
looked at like any other word, and so a keyword as name of a property makes a regular expression of
a division.

## Main definitions

* `openParens`: the parentheses that are open after tokens.
* `EndsInHeadKeyword`: tokens that end with the keyword of a statement with a head.

## Main statements

* `kind_of_slash`: a slash is a regular expression or a punctuator as the context says.
* `regex_after_paren`: a slash after a closing parenthesis.
* `slash_after_property`: a slash after a property and after the call of one.
* `exists_regex_after_property`: divisions that the lexer reads as a regular expression.
-/

namespace EdgeBundle.Lexer

/-! ## Open parentheses -/

/-- For each parenthesis that is open after the tokens, the tokens before it, the innermost
parenthesis first; all tokens the latest first. A closing parenthesis is matched to the innermost
one that is open, or to none. -/
def openParens : List Token → List (List Token)
  | [] => []
  | t :: earlier =>
    if t.isPunct "(" then earlier :: openParens earlier
    else if t.isPunct ")" then (openParens earlier).tail
    else openParens earlier

/-- The tokens, the latest first, end with the keyword of a statement whose head comes next. -/
def EndsInHeadKeyword : List Token → Prop
  | [] => False
  | word :: earlier =>
    word.kind = .ident ∧
      (word.text ∈ ["if", "while", "for", "with"] ∨
        word.text = "await" ∧ ∃ keyword ∈ earlier.head?, keyword.isWord "for" = true)

namespace Context

variable {ctx : Context} {t : Token}

theorem after_append (ctx : Context) (ts us : List Token) :
    ctx.after (ts ++ us) = (ctx.after ts).after us :=
  List.foldl_append

theorem tokens_after (ctx : Context) (ts : List Token) :
    (ctx.after ts).tokens = ts.reverse ++ ctx.tokens := by
  induction ts generalizing ctx with
  | nil => rfl
  | cons t ts ih =>
    rw [after_cons, ih, List.reverse_cons, List.append_assoc]
    rfl

/-- A statement head opens exactly after the keyword of one. -/
theorem opensHead_iff : ctx.opensHead = true ↔ EndsInHeadKeyword ctx.tokens := by
  unfold opensHead
  cases ctx.tokens with
  | nil => simp [EndsInHeadKeyword]
  | cons word earlier =>
    simp only [EndsInHeadKeyword]
    split
    -- what precedes `await` decides
    next hawait =>
      obtain ⟨hkind, htext⟩ := Token.isWord_iff.mp hawait
      cases earlier <;> simp [hkind, htext]
    next hawait =>
      have hne : word.kind = .ident → word.text ≠ "await" := fun hkind htext =>
        hawait (Token.isWord_iff.mpr ⟨hkind, htext⟩)
      rw [Bool.and_eq_true, beq_iff_eq, List.contains_iff_mem]
      constructor
      · rintro ⟨hkind, hword⟩
        exact ⟨hkind, .inl hword⟩
      · rintro ⟨hkind, hword | ⟨htext, -⟩⟩
        · exact ⟨hkind, hword⟩
        · exact absurd htext (hne hkind)

/-- The context keeps for each open parenthesis what the tokens before it say. -/
def TracksParens (ctx : Context) : Prop :=
  ctx.parens = (openParens ctx.tokens).map fun earlier =>
    ({ tokens := earlier } : Context).opensHead

theorem TracksParens.push (h : ctx.TracksParens) (t : Token) : (ctx.push t).TracksParens := by
  unfold TracksParens at h ⊢
  show (if t.isPunct "(" then ctx.opensHead :: ctx.parens
    else if t.isPunct ")" then ctx.parens.tail else ctx.parens) =
      (openParens (t :: ctx.tokens)).map _
  unfold openParens
  split
  -- what the lexer notes at a parenthesis hangs on the tokens before it alone
  · rw [h]
    rfl
  split
  · rw [h, List.map_tail]
  · exact h

theorem TracksParens.after (h : ctx.TracksParens) (ts : List Token) :
    (ctx.after ts).TracksParens := by
  induction ts generalizing ctx with
  | nil => exact h
  | cons t ts ih => exact ih (h.push t)

theorem tracksParens_after (ts : List Token) : (after {} ts).TracksParens := by
  have hempty : ({} : Context).TracksParens := rfl
  exact hempty.after ts

/-- The latest token of a context decides about a slash if it is a word. -/
theorem allowsRegex_push_ident (hkind : t.kind = .ident) :
    (ctx.push t).allowsRegex = true ↔ t.text ∈ operandKeywords := by
  simp [allowsRegex, push, hkind]

/-- After a closing parenthesis a slash starts a regular expression if the matching one starts a
statement head. -/
theorem allowsRegex_push_paren (h : ctx.TracksParens) (ht : t.isPunct ")" = true) :
    (ctx.push t).allowsRegex = true ↔
      ∃ earlier ∈ (openParens ctx.tokens).head?, EndsInHeadKeyword earlier := by
  obtain ⟨hkind, htext⟩ := Token.isPunct_iff.mp ht
  have hallows : (ctx.push t).allowsRegex = ctx.parens.headD false := by
    simp [allowsRegex, push, hkind, htext, ht]
  rw [hallows, h]
  cases openParens ctx.tokens with
  | nil => simp
  | cons earlier outer =>
    show opensHead _ = true ↔ _
    rw [opensHead_iff]
    simp

end Context

/-! ## The token that a slash starts -/

/-- The lexeme of a token in the middle of a run, in the context after the tokens before it. -/
theorem Scans.exists_lexemeAt_after {ctx : Context} {offset : Nat} {cs : List Char}
    {before after : List Token} {t : Token} (h : Scans ctx offset cs (before ++ t :: after)) :
    ∃ c rest more, LexemeAt (ctx.after before) c rest ⟨some t.kind, more⟩ ∧
      t.text.toList = c :: rest.take more := by
  generalize hts : before ++ t :: after = ts at h
  induction h generalizing before with
  | done => simp at hts
  -- a gap is read in the same context
  | gap _ _ ih => exact ih hts
  | @token ctx offset c cs kind more u ts hl hu _ ih =>
    cases before with
    | nil =>
      obtain ⟨rfl, rfl⟩ := List.cons.inj hts
      subst hu
      exact ⟨c, cs, more, hl, String.toList_ofList⟩
    | cons v before =>
      obtain ⟨rfl, hrest⟩ := List.cons.inj hts
      exact ih hrest

/-- A token that starts with a slash is a regular expression or a punctuator. -/
theorem LexemeAt.kind_of_slash {ctx : Context} {cs : List Char} {kind : TokenKind} {more : Nat}
    (hl : LexemeAt ctx '/' cs ⟨some kind, more⟩) :
    kind = if ctx.allowsRegex then .regex else .punct := by
  cases hl with
  | str hc => simp at hc
  | template hc => simp at hc
  | regex _ _ hctx => rw [if_pos hctx]
  | number hc => simp at hc
  | ident hc => exact absurd hc (by decide)
  | punct hc => rw [(hc.divides rfl).2.2, if_neg Bool.false_ne_true]

section Source

variable {src : String} {before after : List Token} {slash : Token}

/-- A slash of a source is a regular expression or a punctuator as the tokens before it say. -/
theorem kind_of_slash (h : tokenize src = .ok (before ++ slash :: after))
    (hslash : slash.text.toList.head? = some '/') :
    slash.kind = if (Context.after {} before).allowsRegex then .regex else .punct := by
  obtain ⟨c, rest, more, hl, htext⟩ := (tokenize_eq_ok_iff.mp h).exists_lexemeAt_after
  rw [htext, List.head?_cons] at hslash
  cases hslash
  exact hl.kind_of_slash

/-- The kind of a slash after one more token, from a condition for a regular expression. -/
theorem kind_of_slash_after {last : Token} {p : Prop}
    (h : tokenize src = .ok (before ++ last :: slash :: after))
    (hslash : slash.text.toList.head? = some '/')
    (hp : ((Context.after {} before).push last).allowsRegex = true ↔ p) :
    (p → slash.kind = .regex) ∧ (¬ p → slash.kind = .punct) := by
  -- the context that decides is the one after the last token
  rw [← List.singleton_append, ← List.append_assoc] at h
  have hkind := kind_of_slash h hslash
  rw [Context.after_append, Context.after_cons, Context.after_nil] at hkind
  refine ⟨fun hyes => ?_, fun hno => ?_⟩
  · rw [hkind, if_pos (hp.mpr hyes)]
  · rw [hkind, if_neg (mt hp.mp hno)]

theorem tokens_after_empty (ts : List Token) : (Context.after {} ts).tokens = ts.reverse := by
  rw [Context.tokens_after]
  exact List.append_nil _

/-- A slash after a closing parenthesis starts a regular expression exactly if the parenthesis that
is matched to it comes after the keyword of a statement head; else it is a punctuator. -/
theorem regex_after_paren {closing : Token}
    (h : tokenize src = .ok (before ++ closing :: slash :: after))
    (hclosing : closing.isPunct ")" = true) (hslash : slash.text.toList.head? = some '/') :
    ((∃ earlier ∈ (openParens before.reverse).head?, EndsInHeadKeyword earlier) →
        slash.kind = .regex) ∧
      ((¬ ∃ earlier ∈ (openParens before.reverse).head?, EndsInHeadKeyword earlier) →
        slash.kind = .punct) := by
  refine kind_of_slash_after h hslash ?_
  rw [Context.allowsRegex_push_paren (Context.tracksParens_after before) hclosing,
    tokens_after_empty]

/-- The tokens of a call in the head of a statement. -/
def callInHead : List Token :=
  [⟨.ident, 0, "for"⟩, ⟨.ident, 4, "await"⟩, ⟨.punct, 10, "("⟩, ⟨.ident, 11, "f"⟩,
    ⟨.punct, 12, "("⟩, ⟨.ident, 13, "a"⟩, ⟨.punct, 14, ")"⟩]

/-- The parenthesis before the slash is matched to the one of the head, not to that of the call. -/
theorem regex_after_paren_for_await :
    tokenize "for await (f(a)) /b/" =
        .ok (callInHead ++ [⟨.punct, 15, ")"⟩, ⟨.regex, 17, "/b/"⟩]) ∧
      (∃ earlier ∈ (openParens callInHead.reverse).head?, EndsInHeadKeyword earlier) ∧
      (⟨.regex, 17, "/b/"⟩ : Token).kind = .regex := by
  have h : tokenize "for await (f(a)) /b/" =
      .ok (callInHead ++ [⟨.punct, 15, ")"⟩, ⟨.regex, 17, "/b/"⟩]) := by decide +kernel
  have hopen : ∃ earlier ∈ (openParens callInHead.reverse).head?, EndsInHeadKeyword earlier :=
    ⟨[⟨.ident, 4, "await"⟩, ⟨.ident, 0, "for"⟩], by decide,
      rfl, .inr ⟨rfl, ⟨.ident, 0, "for"⟩, rfl, by decide⟩⟩
  exact ⟨h, hopen, (regex_after_paren h (by decide) (by decide)).1 hopen⟩

/-- A slash after the name of a property starts a regular expression exactly if the name is a
keyword before an operand. After the call of a property it does so exactly if the name is the
keyword of a statement head. -/
theorem slash_after_property {ts : List Token} {access name : Token} (h : tokenize src = .ok ts)
    (haccess : access.isPunct "." = true ∨ access.isPunct "?." = true)
    (hname : name.kind = .ident) :
    (∀ before slash after, ts = before ++ access :: name :: slash :: after →
        slash.text.toList.head? = some '/' →
        (name.text ∈ operandKeywords → slash.kind = .regex) ∧
          (name.text ∉ operandKeywords → slash.kind = .punct)) ∧
      ∀ before earlier closing slash after, ts = before ++ closing :: slash :: after →
        closing.isPunct ")" = true →
        (openParens before.reverse).head? = some (name :: access :: earlier) →
        slash.text.toList.head? = some '/' →
        (name.text ∈ headKeywords → slash.kind = .regex) ∧
          (name.text ∉ headKeywords → slash.kind = .punct) := by
  constructor
  · rintro before slash after rfl hslash
    rw [← List.singleton_append, ← List.append_assoc] at h
    exact kind_of_slash_after h hslash (Context.allowsRegex_push_ident hname)
  · rintro before earlier closing slash after rfl hclosing hopen hslash
    refine kind_of_slash_after h hslash ?_
    rw [Context.allowsRegex_push_paren (Context.tracksParens_after before) hclosing,
      tokens_after_empty, hopen]
    -- a property `await` does not come after the word `for`
    have hfor : access.isWord "for" = false := by
      rcases haccess with h | h <;> exact Token.isWord_eq_false_of_isPunct h "for"
    simp [EndsInHeadKeyword, hname, hfor, headKeywords]

end Source

/-- The tokens of `a.b(c) / d.e / 2`. -/
def propertiesBeforeSlashes : List Token :=
  [⟨.ident, 0, "a"⟩, ⟨.punct, 1, "."⟩, ⟨.ident, 2, "b"⟩, ⟨.punct, 3, "("⟩, ⟨.ident, 4, "c"⟩,
    ⟨.punct, 5, ")"⟩, ⟨.punct, 7, "/"⟩, ⟨.ident, 9, "d"⟩, ⟨.punct, 10, "."⟩, ⟨.ident, 11, "e"⟩,
    ⟨.punct, 13, "/"⟩, ⟨.number, 15, "2"⟩]

/-- A slash after the call of a property, and one after a property. -/
theorem slash_after_property_divisions :
    tokenize "a.b(c) / d.e / 2" = .ok propertiesBeforeSlashes ∧
      (⟨.punct, 7, "/"⟩ : Token).kind = .punct ∧ (⟨.punct, 13, "/"⟩ : Token).kind = .punct := by
  have h : tokenize "a.b(c) / d.e / 2" = .ok propertiesBeforeSlashes := by decide +kernel
  refine ⟨h, ?_, ?_⟩
  · have hlaw := (@slash_after_property _ _ ⟨.punct, 1, "."⟩ ⟨.ident, 2, "b"⟩ h
      (.inl (by decide)) rfl).2
    exact (hlaw (propertiesBeforeSlashes.take 5) [⟨.ident, 0, "a"⟩] ⟨.punct, 5, ")"⟩
      ⟨.punct, 7, "/"⟩ (propertiesBeforeSlashes.drop 7) rfl (by decide) (by decide)
      (by decide)).2 (by decide)
  · have hlaw := (@slash_after_property _ _ ⟨.punct, 10, "."⟩ ⟨.ident, 11, "e"⟩ h
      (.inl (by decide)) rfl).1
    exact (hlaw (propertiesBeforeSlashes.take 8) ⟨.punct, 13, "/"⟩
      (propertiesBeforeSlashes.drop 11) rfl (by decide)).2 (by decide)

/-- A property named like a keyword makes a regular expression of what two divisions have between
them. -/
theorem exists_regex_after_property :
    tokenize "x.in / 2 / y" =
        .ok [⟨.ident, 0, "x"⟩, ⟨.punct, 1, "."⟩, ⟨.ident, 2, "in"⟩, ⟨.regex, 5, "/ 2 /"⟩,
          ⟨.ident, 11, "y"⟩] ∧
      tokenize "Symbol.for(k) / n / m" =
        .ok [⟨.ident, 0, "Symbol"⟩, ⟨.punct, 6, "."⟩, ⟨.ident, 7, "for"⟩, ⟨.punct, 10, "("⟩,
          ⟨.ident, 11, "k"⟩, ⟨.punct, 12, ")"⟩, ⟨.regex, 14, "/ n /"⟩, ⟨.ident, 20, "m"⟩] := by
  constructor <;> decide +kernel

end EdgeBundle.Lexer
