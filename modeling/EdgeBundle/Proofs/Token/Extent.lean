import EdgeBundle.Proofs.Token.Spelling

/-!
# How far literals go

A literal goes on to the first text that closes it. A backslash takes the next character with it, so
that nothing stops at either; and in a regular expression a class takes everything up to its closing
bracket. This is said here without the lexer, and the lengths that the lexer reads are exactly the
distances to such ends.

## Main definitions

* `Unstopped`: text in which none of some stops starts unescaped.
* `RegexText`: text between the slashes of a regular expression.
* `TemplateEnd`: how template text ends.

## Main statements

* `stringLength_eq_some_iff`, `templateLength_eq_some_iff`, `regexLength_eq_some_iff`: what the
  lexer reads of a literal.
* `commentLength_eq_none_iff`: a block comment without an end.
-/

namespace EdgeBundle.Lexer

/-- None of the stops starts in the text. A backslash takes the next character with it, and no stop
starts at either of the two. -/
inductive Unstopped (stops : List (List Char)) : List Char → Prop
  | nil : Unstopped stops []
  | escape {c : Char} {cs : List Char} (hcs : Unstopped stops cs) :
      Unstopped stops ('\\' :: c :: cs)
  | char {c : Char} {cs : List Char} (hc : c ≠ '\\') (hstop : ∀ s ∈ stops, ¬ s <+: c :: cs)
      (hcs : Unstopped stops cs) : Unstopped stops (c :: cs)

/-- What a string in the given quotes does not reach past: the quote and the end of the line. -/
def stringStops (quote : Char) : List (List Char) :=
  [[quote], ['\n']]

/-- What template text does not reach past: a backtick and the start of a substitution. -/
def templateStops : List (List Char) :=
  [['`'], ['$', '{']]

/-- What a class of a regular expression does not reach past: its bracket and the end of the line.
-/
def classStops : List (List Char) :=
  [[']'], ['\n']]

/-- How template text ends, and of which class the token is then. -/
inductive TemplateEnd : TokenKind → List Char → Prop
  | backtick : TemplateEnd .template ['`']
  | substitution : TemplateEnd .templateHead ['$', '{']

/-- Text between the slashes of a regular expression: no line ends in it unescaped, and a slash
stands in it only escaped or in a class. -/
inductive RegexText : List Char → Prop
  | nil : RegexText []
  | escape {c : Char} {cs : List Char} (hcs : RegexText cs) : RegexText ('\\' :: c :: cs)
  | char {c : Char} {cs : List Char} (hc : c ∉ ['\\', '/', '[', '\n']) (hcs : RegexText cs) :
      RegexText (c :: cs)
  | ofClass {inner cs : List Char} (hinner : Unstopped classStops inner) (hcs : RegexText cs) :
      RegexText ('[' :: (inner ++ ']' :: cs))

/-! ## Stops -/

section Stops

variable {a b c : Char} {cs : List Char}

theorem forall_not_isPrefix_pair :
    (∀ s ∈ [[a], [b]], ¬ s <+: c :: cs) ↔ c ≠ a ∧ c ≠ b := by
  simp [List.cons_prefix_cons, eq_comm]

theorem forall_templateStops :
    (∀ s ∈ templateStops, ¬ s <+: c :: cs) ↔ c ≠ '`' ∧ (c = '$' → cs.head? ≠ some '{') := by
  cases cs <;> simp [templateStops, List.cons_prefix_cons, eq_comm]

end Stops

/-! ## Strings -/

section Strings

variable {quote : Char} {body rest cs : List Char} {n m : Nat}

/-- A string is read up to the quote behind it. -/
theorem Unstopped.stringLength_append (h : Unstopped (stringStops quote) body)
    (hquote : quote = '\'' ∨ quote = '"') (n : Nat) :
    stringLength quote n (body ++ quote :: rest) = some (n + (body.length + 1)) := by
  induction h generalizing n with
  | nil =>
    -- a quote is neither a backslash nor the end of a line
    rcases hquote with rfl | rfl <;> simp [stringLength]
  | @escape c cs _ ih =>
    rw [List.cons_append, List.cons_append, stringLength, ih, List.length_cons, List.length_cons]
    congr 1
    omega
  | @char c cs hc hstop _ ih =>
    obtain ⟨hne, hline⟩ := forall_not_isPrefix_pair.mp hstop
    rw [List.cons_append, stringLength, if_neg hline, if_neg hne, ih, List.length_cons]
    · congr 1
      omega
    · exact fun hescape => absurd hescape hc

theorem unstopped_of_stringLength (h : stringLength quote n cs = some m) :
    ∃ body rest, cs = body ++ quote :: rest ∧ m = n + (body.length + 1) ∧
      Unstopped (stringStops quote) body := by
  fun_induction stringLength quote n cs with
  | case1 | case2 | case4 => cases h
  | case3 n c cs ih =>
    obtain ⟨body, rest, rfl, rfl, hbody⟩ := ih h
    exact ⟨'\\' :: c :: body, rest, rfl, by simp only [List.length_cons]; omega, hbody.escape⟩
  | case5 n cs =>
    cases h
    exact ⟨[], cs, rfl, rfl, .nil⟩
  | case6 n c cs hesc hline hquote ih =>
    obtain ⟨body, rest, rfl, rfl, hbody⟩ := ih h
    exact ⟨c :: body, rest, rfl, by simp only [List.length_cons]; omega,
      .char hesc (forall_not_isPrefix_pair.mpr ⟨hquote, hline⟩) hbody⟩

/-- A string is what stands before the first quote that closes it, if that is on the same line. -/
theorem stringLength_eq_some_iff (hquote : quote = '\'' ∨ quote = '"') :
    stringLength quote n cs = some m ↔
      ∃ body rest, cs = body ++ quote :: rest ∧ m = n + (body.length + 1) ∧
        Unstopped (stringStops quote) body := by
  constructor
  · intro h
    exact unstopped_of_stringLength h
  · rintro ⟨body, rest, rfl, rfl, hbody⟩
    exact hbody.stringLength_append hquote n

end Strings

/-! ## Template text -/

section Templates

variable {kind : TokenKind} {body closing rest cs : List Char} {n m : Nat}

/-- Template text is read up to the end behind it. -/
theorem Unstopped.templateLength_append (h : Unstopped templateStops body)
    (hclosing : TemplateEnd kind closing) (n : Nat) :
    templateLength n (body ++ (closing ++ rest)) =
      some (kind, n + (body.length + closing.length)) := by
  induction h generalizing n with
  | nil => cases hclosing <;> simp [templateLength]
  | @escape c cs _ ih =>
    rw [List.cons_append, List.cons_append, templateLength, ih, List.length_cons, List.length_cons]
    congr 2
    omega
  | @char c cs hc hstop _ ih =>
    obtain ⟨hbacktick, hopen⟩ := forall_templateStops.mp hstop
    rw [List.cons_append, templateLength, ih, List.length_cons]
    · congr 2
      omega
    · exact fun hescape => absurd hescape hc
    · exact fun h => absurd h hbacktick
    -- a dollar sign before the end of the text is not before a brace
    · intro tail hdollar hbrace
      cases cs with
      | cons d cs =>
        apply hopen hdollar
        rw [(List.cons.inj hbrace).1, List.head?_cons]
      | nil => cases hclosing <;> cases (List.cons.inj hbrace).1

theorem unstopped_of_templateLength (h : templateLength n cs = some (kind, m)) :
    ∃ body closing rest, TemplateEnd kind closing ∧ cs = body ++ (closing ++ rest) ∧
      m = n + (body.length + closing.length) ∧ Unstopped templateStops body := by
  fun_induction templateLength n cs with
  | case1 | case2 => cases h
  | case3 n c cs ih =>
    obtain ⟨body, closing, rest, hend, rfl, rfl, hbody⟩ := ih h
    exact ⟨'\\' :: c :: body, closing, rest, hend, rfl, by simp only [List.length_cons]; omega,
      hbody.escape⟩
  -- the text ends here
  | case4 n cs =>
    cases h
    exact ⟨[], _, cs, .backtick, rfl, rfl, .nil⟩
  | case5 n cs =>
    cases h
    exact ⟨[], _, cs, .substitution, rfl, rfl, .nil⟩
  | case6 n c cs hesc hbacktick hopen ih =>
    obtain ⟨body, closing, rest, hend, rfl, rfl, hbody⟩ := ih h
    refine ⟨c :: body, closing, rest, hend, rfl, by simp only [List.length_cons]; omega, ?_⟩
    refine .char hesc (forall_templateStops.mpr ⟨hbacktick, ?_⟩) hbody
    -- a dollar sign that is read over has no brace behind it
    intro hdollar hhead
    cases body with
    | nil => cases hhead
    | cons d body =>
      cases hhead
      exact hopen _ hdollar rfl

/-- Template text is what stands before the first backtick or substitution. -/
theorem templateLength_eq_some_iff :
    templateLength n cs = some (kind, m) ↔
      ∃ body closing rest, TemplateEnd kind closing ∧ cs = body ++ (closing ++ rest) ∧
        m = n + (body.length + closing.length) ∧ Unstopped templateStops body := by
  constructor
  · intro h
    exact unstopped_of_templateLength h
  · rintro ⟨body, closing, rest, hend, rfl, rfl, hbody⟩
    exact hbody.templateLength_append hend n

end Templates

/-! ## Regular expressions -/

section Regexes

variable {inClass : Bool} {inner body rest cs : List Char} {n m : Nat}

/-- A class is read up to its bracket. -/
theorem Unstopped.regexLength_append (h : Unstopped classStops inner) (n : Nat)
    (rest : List Char) : regexLength true n (inner ++ ']' :: rest) =
      regexLength false (n + (inner.length + 1)) rest := by
  induction h generalizing n with
  | nil => rw [List.nil_append, regexLength] <;> simp
  | @escape c cs _ ih =>
    rw [List.cons_append, List.cons_append, regexLength, ih, List.length_cons, List.length_cons]
    congr 1
    omega
  | @char c cs hc hstop _ ih =>
    obtain ⟨hne, hline⟩ := forall_not_isPrefix_pair.mp hstop
    have hcs : regexLength true (n + 1) (cs ++ ']' :: rest) =
        regexLength false (n + ((c :: cs).length + 1)) rest := by
      rw [ih, List.length_cons]
      congr 1
      omega
    rw [List.cons_append, regexLength, if_neg hline, if_neg hne, hcs]
    · simp
    · exact fun hescape => absurd hescape hc

/-- The body of a regular expression is read up to the slash behind it. -/
theorem RegexText.regexLength_append (h : RegexText body) (n : Nat) (rest : List Char) :
    regexLength false n (body ++ '/' :: rest) = some (n + (body.length + 1)) := by
  induction h generalizing n with
  | nil => rw [List.nil_append, regexLength] <;> simp
  | @escape c cs _ ih =>
    rw [List.cons_append, List.cons_append, regexLength, ih, List.length_cons, List.length_cons]
    congr 1
    omega
  | @char c cs hc _ ih =>
    simp only [List.mem_cons, List.not_mem_nil, or_false, not_or] at hc
    obtain ⟨hescape, hslash, hopen, hline⟩ := hc
    rw [List.cons_append, regexLength, if_neg hline, if_neg hopen, ih, List.length_cons]
    · simp [hslash]
      omega
    · exact fun h => absurd h hescape
  -- a class is read over as a whole
  | @ofClass inner cs hinner _ ih =>
    have hsplit : '[' :: (inner ++ ']' :: cs) ++ '/' :: rest =
        '[' :: (inner ++ ']' :: (cs ++ '/' :: rest)) := by
      simp
    rw [hsplit, regexLength, if_neg (by decide), if_pos rfl, hinner.regexLength_append, ih]
    · simp only [List.length_cons, List.length_append]
      congr 1
      omega
    · simp

/-- Text up to the slash that closes a regular expression, perhaps from inside a class on. -/
def RegexRest (inClass : Bool) (text : List Char) : Prop :=
  if inClass then
    ∃ inner outer, text = inner ++ ']' :: outer ∧ Unstopped classStops inner ∧ RegexText outer
  else RegexText text

namespace RegexRest

variable {c : Char}

theorem escape (h : RegexRest inClass cs) (c : Char) : RegexRest inClass ('\\' :: c :: cs) := by
  cases inClass with
  | false => exact RegexText.escape h
  | true =>
    obtain ⟨inner, outer, rfl, hinner, houter⟩ := h
    exact ⟨'\\' :: c :: inner, outer, rfl, hinner.escape, houter⟩

/-- A bracket opens a class, and is a character of one that is open. -/
theorem opening (h : RegexRest true cs) : RegexRest inClass ('[' :: cs) := by
  obtain ⟨inner, outer, rfl, hinner, houter⟩ := h
  cases inClass with
  | false => exact RegexText.ofClass hinner houter
  | true =>
    have hplain : ∀ s ∈ classStops, ¬ s <+: '[' :: inner :=
      forall_not_isPrefix_pair.mpr ⟨by decide, by decide⟩
    exact ⟨'[' :: inner, outer, rfl, .char (by decide) hplain hinner, houter⟩

/-- A bracket closes a class, and is a character where none is open. -/
theorem closing (h : RegexRest false cs) : RegexRest inClass (']' :: cs) := by
  cases inClass with
  | false => exact RegexText.char (by decide) h
  | true => exact ⟨[], cs, rfl, .nil, h⟩

theorem char (h : RegexRest inClass cs) (hc : c ∉ ['\\', '[', ']', '\n'])
    (hslash : c = '/' → inClass = true) : RegexRest inClass (c :: cs) := by
  simp only [List.mem_cons, List.not_mem_nil, or_false, not_or] at hc
  obtain ⟨hescape, hopen, hclose, hline⟩ := hc
  cases inClass with
  | false =>
    have hne : c ≠ '/' := fun h => Bool.false_ne_true (hslash h)
    exact RegexText.char (by simp [hescape, hne, hopen, hline]) h
  | true =>
    obtain ⟨inner, outer, rfl, hinner, houter⟩ := h
    exact ⟨c :: inner, outer, rfl,
      .char hescape (forall_not_isPrefix_pair.mpr ⟨hclose, hline⟩) hinner, houter⟩

end RegexRest

theorem regexRest_of_regexLength (h : regexLength inClass n cs = some m) :
    ∃ body rest, cs = body ++ '/' :: rest ∧ m = n + (body.length + 1) ∧
      RegexRest inClass body := by
  fun_induction regexLength inClass n cs with
  | case1 | case2 | case4 => cases h
  | case3 inClass n c cs ih =>
    obtain ⟨body, rest, rfl, rfl, hbody⟩ := ih h
    exact ⟨'\\' :: c :: body, rest, rfl, by simp only [List.length_cons]; omega, hbody.escape c⟩
  -- the brackets of a class
  | case5 inClass n cs hesc hline ih =>
    obtain ⟨body, rest, rfl, rfl, hbody⟩ := ih h
    exact ⟨'[' :: body, rest, rfl, by simp only [List.length_cons]; omega, hbody.opening⟩
  | case6 inClass n cs hesc hline _ ih =>
    obtain ⟨body, rest, rfl, rfl, hbody⟩ := ih h
    exact ⟨']' :: body, rest, rfl, by simp only [List.length_cons]; omega, hbody.closing⟩
  -- the closing slash
  | case7 inClass n c cs hesc hline hopen hclose hslash =>
    cases h
    obtain ⟨rfl, rfl⟩ : c = '/' ∧ inClass = false := by simpa using hslash
    exact ⟨[], cs, rfl, rfl, RegexText.nil⟩
  | case8 inClass n c cs hesc hline hopen hclose hslash ih =>
    obtain ⟨body, rest, rfl, rfl, hbody⟩ := ih h
    have hc : c ∉ ['\\', '[', ']', '\n'] := by
      simpa [hopen, hclose, hline] using hesc
    exact ⟨c :: body, rest, rfl, by simp only [List.length_cons]; omega,
      hbody.char hc (by simpa using hslash)⟩

/-- The body of a regular expression is what stands before the first slash that closes it, if that
is on the same line. -/
theorem regexLength_eq_some_iff :
    regexLength false n cs = some m ↔
      ∃ body rest, cs = body ++ '/' :: rest ∧ m = n + (body.length + 1) ∧ RegexText body := by
  constructor
  · intro h
    exact regexRest_of_regexLength h
  · rintro ⟨body, rest, rfl, rfl, hbody⟩
    exact hbody.regexLength_append n rest

end Regexes

/-! ## Comments -/

/-- A block comment has no end if no asterisk and slash follow. -/
theorem commentLength_eq_none_iff {n : Nat} {cs : List Char} :
    commentLength n cs = none ↔ ¬ ['*', '/'] <:+: cs := by
  fun_induction commentLength n cs with
  | case1 => simp
  | case2 n cs => simpa using (List.infix_append [] ['*', '/'] cs)
  | case3 n c cs hclose ih =>
    rw [ih, List.infix_cons_iff, not_or, iff_and_self]
    rintro - ⟨tail, htail⟩
    obtain ⟨rfl, hcs⟩ := List.cons.inj htail
    exact hclose tail rfl hcs.symm

end EdgeBundle.Lexer
