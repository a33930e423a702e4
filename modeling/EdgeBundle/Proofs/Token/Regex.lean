import EdgeBundle.Proofs.Token.Extent
import EdgeBundle.Proofs.Token.LeadingWord
import EdgeBundle.Proofs.Token.Slash

/-!
# Regular expression literals

A regular expression literal is a body between slashes, with flags after it. In the body a backslash
takes the next character with it, and a slash in a class does not end it. Where a regular expression
may start, the lexer reads the whole literal as one token, whatever it is made of. Elsewhere it
reads the first slash alone, or with an equals sign behind it, and goes on inside the literal.

## Main definitions

* `RegexLiteral`: the literals of the language that stand on one line.

## Main statements

* `RegexLiteral.scans`: a literal is one token.
* `RegexLiteral.exists_division`: a literal where none may start.
-/

namespace EdgeBundle.Lexer

/-- Characters that end a line. -/
def isLineEnd (c : Char) : Bool :=
  c == '\n' || c == '\r' || c == '\u2028' || c == '\u2029'

/-- Text between the brackets of a class. -/
inductive ClassText : List Char → Prop
  | nil : ClassText []
  | char {c : Char} {cs : List Char} (hline : isLineEnd c = false) (hc : c ∉ [']', '\\'])
      (hcs : ClassText cs) : ClassText (c :: cs)
  | escape {c : Char} {cs : List Char} (hline : isLineEnd c = false) (hcs : ClassText cs) :
      ClassText ('\\' :: c :: cs)

/-- Text between the slashes of a regular expression. -/
inductive RegexBody : List Char → Prop
  | nil : RegexBody []
  | char {c : Char} {cs : List Char} (hline : isLineEnd c = false) (hc : c ∉ ['/', '[', '\\'])
      (hcs : RegexBody cs) : RegexBody (c :: cs)
  | escape {c : Char} {cs : List Char} (hline : isLineEnd c = false) (hcs : RegexBody cs) :
      RegexBody ('\\' :: c :: cs)
  | ofClass {inner cs : List Char} (hinner : ClassText inner) (hcs : RegexBody cs) :
      RegexBody ('[' :: (inner ++ ']' :: cs))

/-- A regular expression literal: a body that is not empty and starts no comment, between slashes,
and flags, which are any characters of identifiers but escapes. -/
inductive RegexLiteral : List Char → Prop
  | mk {body flags : List Char} (hbody : RegexBody body) (hne : body ≠ [])
      (hcomment : body.head? ≠ some '*')
      (hflags : ∀ c ∈ flags, isIdentPart c = true ∧ c ≠ '\\' ∧ isLineEnd c = false) :
      RegexLiteral ('/' :: (body ++ '/' :: flags))

/-! ## Bodies -/

theorem ne_newline_of_isLineEnd {c : Char} (h : isLineEnd c = false) : c ≠ '\n' := by
  rintro rfl
  cases h

/-- A class has no bracket that closes it and no end of the line in it. -/
theorem ClassText.unstopped {inner : List Char} (h : ClassText inner) :
    Unstopped classStops inner := by
  induction h with
  | nil => exact .nil
  | char hline hc _ ih =>
    simp only [List.mem_cons, List.not_mem_nil, or_false, not_or] at hc
    exact .char hc.2 (forall_not_isPrefix_pair.mpr ⟨hc.1, ne_newline_of_isLineEnd hline⟩) ih
  | escape _ _ ih => exact ih.escape

/-- A body has no slash that closes it and no end of the line in it. -/
theorem RegexBody.regexText {body : List Char} (h : RegexBody body) : RegexText body := by
  induction h with
  | nil => exact .nil
  | char hline hc _ ih =>
    simp only [List.mem_cons, List.not_mem_nil, or_false, not_or] at hc
    obtain ⟨hslash, hopen, hescape⟩ := hc
    exact .char (by simp [hslash, hopen, hescape, ne_newline_of_isLineEnd hline]) ih
  | escape _ _ ih => exact ih.escape
  | ofClass hinner _ ih => exact .ofClass hinner.unstopped ih

/-- Characters that mean themselves, before a body. -/
theorem RegexBody.plain_append {cs body : List Char}
    (hcs : cs.all (fun c => !isLineEnd c && decide (c ∉ ['/', '[', '\\'])) = true)
    (h : RegexBody body) : RegexBody (cs ++ body) := by
  induction cs with
  | nil => exact h
  | cons c cs ih =>
    rw [List.all_cons, Bool.and_eq_true, Bool.and_eq_true, Bool.not_eq_true',
      decide_eq_true_iff] at hcs
    exact .char hcs.1.1 hcs.1.2 (ih hcs.2)

/-- The first character of a body. -/
theorem RegexBody.head?_ne_slash {body : List Char} (h : RegexBody body) :
    body.head? ≠ some '/' := by
  cases h with
  | char _ hc =>
    rintro ⟨⟩
    simp at hc
  | nil | escape | ofClass => simp

namespace RegexLiteral

variable {ctx : Context} {offset : Nat} {literal rest : List Char} {ts : List Token}

/-- A literal starts with a slash that starts no comment. -/
theorem exists_cons (h : RegexLiteral literal) :
    ∃ cs, literal = '/' :: cs ∧ ∀ rest : List Char,
      (cs ++ rest).head? ≠ some '/' ∧ (cs ++ rest).head? ≠ some '*' := by
  obtain @⟨body, flags, hbody, hne, hcomment, -⟩ := h
  refine ⟨body ++ '/' :: flags, rfl, fun rest => ?_⟩
  rw [List.append_assoc, List.head?_append_of_ne_nil _ hne]
  exact ⟨hbody.head?_ne_slash, hcomment⟩

theorem newline_not_mem (h : RegexLiteral literal) : '\n' ∉ literal := by
  have hclass {inner : List Char} (h : ClassText inner) : '\n' ∉ inner := by
    induction h with
    | nil => simp
    | char hline _ _ ih => simp [ih, (ne_newline_of_isLineEnd hline).symm]
    | escape hline _ ih => simp [ih, (ne_newline_of_isLineEnd hline).symm]
  have hbody {body : List Char} (h : RegexBody body) : '\n' ∉ body := by
    induction h with
    | nil => simp
    | char hline _ _ ih => simp [ih, (ne_newline_of_isLineEnd hline).symm]
    | escape hline _ ih => simp [ih, (ne_newline_of_isLineEnd hline).symm]
    | ofClass hinner _ ih => simp [ih, hclass hinner]
  obtain @⟨body, flags, hbody', -, -, hflags⟩ := h
  have hflags' : '\n' ∉ flags := fun hmem => by
    have hline := (hflags _ hmem).2.2
    cases hline
  simp [hbody hbody', hflags']

/-- Where a regular expression may start, a literal is one token. -/
theorem scans (h : RegexLiteral literal) (hctx : ctx.allowsRegex = true) (hrest : EndsName rest)
    (hscan : Scans (ctx.push ⟨.regex, offset, String.ofList literal⟩)
      (offset + utf8Width literal) rest ts) :
    Scans ctx offset (literal ++ rest) (⟨.regex, offset, String.ofList literal⟩ :: ts) := by
  obtain ⟨cs, hliteral, hhead⟩ := h.exists_cons
  obtain @⟨body, flags, hbody, -, -, hflags⟩ := h
  obtain rfl := (List.cons.inj hliteral).2
  have hsplit : body ++ '/' :: flags ++ rest = body ++ '/' :: (flags ++ rest) := by simp
  have hlength : identLength (flags ++ rest) = flags.length :=
    identLength_append_of_all (fun c hc => (hflags c hc).1) hrest
  have hl : LexemeAt ctx '/' (body ++ '/' :: (flags ++ rest))
      ⟨some .regex, 0 + (body.length + 1) + flags.length⟩ := by
    have hl := LexemeAt.regex rfl (hsplit ▸ hhead rest) hctx
      (hbody.regexText.regexLength_append 0 (flags ++ rest))
    rwa [drop_append_cons, hlength] at hl
  -- the lexeme is the literal
  have htake : (body ++ '/' :: (flags ++ rest)).take (0 + (body.length + 1) + flags.length) =
      body ++ '/' :: flags := by
    rw [take_append_cons, List.take_left]
  have hdrop : (body ++ '/' :: (flags ++ rest)).drop (0 + (body.length + 1) + flags.length) =
      rest := by
    rw [← List.drop_drop, drop_append_cons, List.drop_left]
  rw [List.cons_append, hsplit]
  refine .token hl (by rw [htake]) ?_
  rwa [htake, hdrop]

/-- Where no regular expression may start, a slash is all that is read of a literal, perhaps with
the next character. -/
theorem exists_division (h : RegexLiteral literal) (hctx : ctx.allowsRegex = false)
    (hrun : Scans ctx offset (literal ++ rest) ts) :
    ∃ slash us, ts = slash :: us ∧ slash.kind = .punct ∧ slash.start = offset ∧
      slash.text.toList.head? = some '/' := by
  obtain ⟨cs, rfl, hhead⟩ := h.exists_cons
  obtain ⟨hline, hblock⟩ := hhead rest
  rw [List.cons_append] at hrun
  cases hrun with
  | gap hl =>
    cases hl with
    | blank hc => cases hc
    | lineComment _ hd => exact absurd hd hline
    | blockComment _ hd => exact absurd hd hblock
  | token hl ht =>
    have hkind := hl.kind_of_slash
    rw [hctx, if_neg Bool.false_ne_true] at hkind
    subst ht
    exact ⟨_, _, rfl, hkind, rfl, by rw [String.toList_ofList, List.head?_cons]⟩

end RegexLiteral

end EdgeBundle.Lexer
