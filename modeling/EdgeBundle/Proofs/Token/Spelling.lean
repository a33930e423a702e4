import EdgeBundle.Proofs.Token.Cover
import Mathlib.Data.List.Basic
import Mathlib.Data.List.TakeWhile

/-!
# How tokens are spelled

The texts of tokens as they stand in a source. A literal has a delimiter at its start and one on its
last line, a line goes on inside a string or regular expression only after a backslash, and an
identifier does not stop before a character that goes on with it.

## Main definitions

* `EscapesLines`: texts in which every newline comes after a backslash.
* `IsLiteral`: texts with a delimiter at the start and one on the last line.

## Main statements

* `Scans.exists_lexemeAt`: every token of a run is a lexeme of the source.
* `isLiteral_of_tokenize` and `IsLiteral.escapesLines`: how literals are spelled.
* `ident_maximal`: an identifier ends where it does not go on.
* `Gap.getLast?_mem`: the character before a token that comes after a gap.
-/

namespace EdgeBundle.Lexer

/-- A newline in the text comes after a backslash. -/
def EscapesLines (text : List Char) : Prop :=
  ∀ before after, text = before ++ '\n' :: after → before.getLast? = some '\\'

/-- Characters with which literals start and end. -/
def delimiters : List Char :=
  ['\'', '"', '`', '/', '{', '}']

/-- Classes of literals with delimiters. -/
def literalKinds : List TokenKind :=
  [.str, .template, .templateHead, .regex]

/-- The text starts with a delimiter and has one on its last line. Newlines in a string or regular
expression are escaped. -/
def IsLiteral (kind : TokenKind) (text : List Char) : Prop :=
  ∃ c body d last, text = c :: (body ++ d :: last) ∧ c ∈ delimiters ∧ d ∈ delimiters ∧
    '\n' ∉ last ∧ (kind = .str ∨ kind = .regex → EscapesLines body)

/-! ## Newlines in literals -/

namespace EscapesLines

variable {text : List Char}

theorem of_not_mem (h : '\n' ∉ text) : EscapesLines text := by
  rintro before after rfl
  simp at h

theorem cons {c : Char} (h : EscapesLines text) (hc : c ≠ '\n') : EscapesLines (c :: text) := by
  rintro (- | ⟨d, before⟩) after heq
  · exact absurd (List.cons.inj heq).1 hc
  · obtain ⟨rfl, rfl⟩ := List.cons.inj heq
    rw [List.getLast?_cons, h before after rfl]
    rfl

/-- After a backslash any character may come. -/
theorem escape (h : EscapesLines text) (c : Char) : EscapesLines ('\\' :: c :: text) := by
  rintro (- | ⟨b, - | ⟨d, before⟩⟩) after heq
  · exact absurd (List.cons.inj heq).1 (by decide)
  · obtain ⟨rfl, -⟩ := List.cons.inj heq
    rfl
  · obtain ⟨rfl, hrest⟩ := List.cons.inj heq
    obtain ⟨rfl, rfl⟩ := List.cons.inj hrest
    rw [List.getLast?_cons_cons, List.getLast?_cons, h before after rfl]
    rfl

theorem append {text' : List Char} (h : EscapesLines text) (h' : '\n' ∉ text') :
    EscapesLines (text ++ text') := by
  intro before after heq
  rcases List.append_eq_append_iff.mp heq with ⟨mid, rfl, rfl⟩ | ⟨mid, rfl, hmid⟩
  · simp at h'
  · cases mid with
    | nil =>
      rw [List.nil_append] at hmid
      simp [← hmid] at h'
    | cons c mid =>
      obtain ⟨rfl, -⟩ := List.cons.inj hmid
      exact h before mid rfl

end EscapesLines

/-! ## Ends of literals -/

/-- A string is read up to a quote, and its newlines are escaped. -/
theorem stringLength_eq_some {quote : Char} {n m : Nat} {cs : List Char}
    (h : stringLength quote n cs = some m) :
    ∃ body rest, cs = body ++ quote :: rest ∧ m = n + (body.length + 1) ∧ EscapesLines body := by
  fun_induction stringLength quote n cs with
  | case1 | case2 | case4 => cases h
  | case3 n c cs ih =>
    obtain ⟨body, rest, rfl, rfl, hbody⟩ := ih h
    exact ⟨'\\' :: c :: body, rest, rfl, by simp only [List.length_cons]; omega, hbody.escape c⟩
  | case5 n cs =>
    cases h
    exact ⟨[], cs, rfl, rfl, .of_not_mem (by simp)⟩
  | case6 n c cs hesc hline hquote ih =>
    obtain ⟨body, rest, rfl, rfl, hbody⟩ := ih h
    exact ⟨c :: body, rest, rfl, by simp only [List.length_cons]; omega, hbody.cons hline⟩

/-- Template text is read up to a backtick or an opening brace. -/
theorem templateLength_eq_some {n m : Nat} {cs : List Char} {kind : TokenKind}
    (h : templateLength n cs = some (kind, m)) :
    ∃ body d rest, cs = body ++ d :: rest ∧ m = n + (body.length + 1) ∧ d ∈ ['`', '{'] := by
  fun_induction templateLength n cs with
  | case1 | case2 => cases h
  | case3 n c cs ih =>
    obtain ⟨body, d, rest, rfl, rfl, hd⟩ := ih h
    exact ⟨'\\' :: c :: body, d, rest, rfl, by simp only [List.length_cons]; omega, hd⟩
  | case4 n cs =>
    cases h
    exact ⟨[], '`', cs, rfl, rfl, by simp⟩
  | case5 n cs =>
    cases h
    exact ⟨['$'], '{', cs, rfl, rfl, by simp⟩
  | case6 n c cs _ _ _ ih =>
    obtain ⟨body, d, rest, rfl, rfl, hd⟩ := ih h
    exact ⟨c :: body, d, rest, rfl, by simp only [List.length_cons]; omega, hd⟩

/-- A regular expression is read up to a slash, and its newlines are escaped. -/
theorem regexLength_eq_some {inClass : Bool} {n m : Nat} {cs : List Char}
    (h : regexLength inClass n cs = some m) :
    ∃ body rest, cs = body ++ '/' :: rest ∧ m = n + (body.length + 1) ∧ EscapesLines body := by
  fun_induction regexLength inClass n cs with
  | case1 | case2 | case4 => cases h
  | case3 inClass n c cs ih =>
    obtain ⟨body, rest, rfl, rfl, hbody⟩ := ih h
    exact ⟨'\\' :: c :: body, rest, rfl, by simp only [List.length_cons]; omega, hbody.escape c⟩
  | case5 inClass n cs hesc hline ih | case6 inClass n cs hesc hline _ ih =>
    obtain ⟨body, rest, rfl, rfl, hbody⟩ := ih h
    exact ⟨_ :: body, rest, rfl, by simp only [List.length_cons]; omega, hbody.cons hline⟩
  | case7 inClass n c cs hesc hline hopen hclose hslash =>
    cases h
    obtain ⟨rfl, -⟩ : c = '/' ∧ _ := by simpa using hslash
    exact ⟨[], cs, rfl, rfl, .of_not_mem (by simp)⟩
  | case8 inClass n c cs hesc hline hopen hclose hslash ih =>
    obtain ⟨body, rest, rfl, rfl, hbody⟩ := ih h
    exact ⟨c :: body, rest, rfl, by simp only [List.length_cons]; omega, hbody.cons hline⟩

/-- The characters that are read for an identifier go on with it. -/
theorem isIdentPart_of_mem_take {c : Char} {cs : List Char} (h : c ∈ cs.take (identLength cs)) :
    isIdentPart c = true := by
  have htake : cs.take (identLength cs) = cs.takeWhile isIdentPart :=
    (List.prefix_iff_eq_take.mp (List.takeWhile_prefix isIdentPart)).symm
  rw [htake] at h
  exact List.mem_takeWhile_imp h

/-! ## Literals in a run -/

theorem take_append_cons (body : List Char) (d : Char) (rest : List Char) (n : Nat) :
    (body ++ d :: rest).take (0 + (body.length + 1) + n) = body ++ d :: rest.take n := by
  have hlength : 0 + (body.length + 1) + n = body.length + (n + 1) := by omega
  rw [hlength, List.take_length_add_append, List.take_succ_cons]

theorem drop_append_cons (body : List Char) (d : Char) (rest : List Char) :
    (body ++ d :: rest).drop (0 + (body.length + 1)) = rest := by
  rw [Nat.zero_add, List.drop_length_add_append, List.drop_succ_cons, List.drop_zero]

/-- A literal has its delimiters. -/
theorem LexemeAt.isLiteral {ctx : Context} {c : Char} {cs : List Char} {kind : TokenKind}
    {more : Nat} (h : LexemeAt ctx c cs ⟨some kind, more⟩) (hkind : kind ∈ literalKinds) :
    IsLiteral kind (c :: cs.take more) := by
  cases h with
  | str hc hn =>
    obtain ⟨body, rest, rfl, rfl, hbody⟩ := stringLength_eq_some hn
    have hquote : c ∈ delimiters := by rcases hc with rfl | rfl <;> decide
    exact ⟨c, body, c, _, congrArg (c :: ·) (take_append_cons body c rest 0), hquote, hquote,
      by simp, fun _ => hbody⟩
  | template hc hn =>
    obtain ⟨body, d, rest, rfl, rfl, hd⟩ := templateLength_eq_some hn
    have hopen : c ∈ delimiters := by rcases hc with rfl | ⟨rfl, -⟩ <;> decide
    have hclose : ['`', '{'] ⊆ delimiters := by decide
    have hkinds : ¬ (kind = .str ∨ kind = .regex) := by
      rcases templateLength_kind hn with rfl | rfl <;> decide
    exact ⟨c, body, d, _, congrArg (c :: ·) (take_append_cons body d rest 0), hopen, hclose hd,
      by simp, fun h => absurd h hkinds⟩
  | regex hc _ _ hn =>
    obtain ⟨body, rest, rfl, rfl, hbody⟩ := regexLength_eq_some hn
    rw [drop_append_cons]
    exact ⟨c, body, '/', _, congrArg (c :: ·) (take_append_cons body '/' rest _), hc ▸ by decide,
      by decide, fun h => absurd (isIdentPart_of_mem_take h) (by decide), fun _ => hbody⟩
  | number | ident | punct => simp [literalKinds] at hkind

theorem newline_not_mem_delimiters : '\n' ∉ delimiters := by
  decide

namespace IsLiteral

variable {kind : TokenKind} {text : List Char}

/-- A line goes on in a string or regular expression only after a backslash. -/
theorem escapesLines (h : IsLiteral kind text) (hkind : kind = .str ∨ kind = .regex) :
    EscapesLines text := by
  obtain ⟨c, body, d, last, rfl, hc, hd, hlast, hbody⟩ := h
  have hline {e : Char} (he : e ∈ delimiters) : e ≠ '\n' := by
    rintro rfl
    exact newline_not_mem_delimiters he
  refine ((hbody hkind).append ?_).cons (hline hc)
  rw [List.mem_cons, not_or]
  exact ⟨(hline hd).symm, hlast⟩

end IsLiteral

/-! ## Tokens of a run -/

/-- Every token of a run is a lexeme of the source. -/
theorem Scans.exists_lexemeAt {ctx : Context} {offset : Nat} {cs : List Char} {ts : List Token}
    {t : Token} (h : Scans ctx offset cs ts) (ht : t ∈ ts) :
    ∃ ctx' before c rest more, cs = before ++ c :: rest ∧ t.start = offset + utf8Width before ∧
      LexemeAt ctx' c rest ⟨some t.kind, more⟩ ∧ t.text.toList = c :: rest.take more := by
  induction h with
  | done => cases ht
  | @gap _ offset c cs more _ hl _ ih =>
    obtain ⟨ctx', before, d, rest, more', hcs, hstart, hl', htext⟩ := ih ht
    refine ⟨ctx', c :: cs.take more ++ before, d, rest, more', ?_, ?_, hl', htext⟩
    · rw [List.append_assoc, ← hcs, List.cons_append, List.take_append_drop]
    · rw [hstart, utf8Width_append, Nat.add_assoc]
  | @token ctx offset c cs kind more u _ hl hu _ ih =>
    rcases List.mem_cons.mp ht with rfl | ht
    · subst hu
      exact ⟨ctx, [], c, cs, more, rfl, rfl, hl, String.toList_ofList⟩
    · obtain ⟨ctx', before, d, rest, more', hcs, hstart, hl', htext⟩ := ih ht
      refine ⟨ctx', c :: cs.take more ++ before, d, rest, more', ?_, ?_, hl', htext⟩
      · rw [List.append_assoc, ← hcs, List.cons_append, List.take_append_drop]
      · rw [hstart, utf8Width_append, Nat.add_assoc]

/-- Every token of an accepted source is a lexeme of it. -/
theorem exists_lexemeAt_of_tokenize {src : String} {ts : List Token} {t : Token}
    (h : tokenize src = .ok ts) (ht : t ∈ ts) :
    ∃ ctx before c rest more, src.toList = before ++ c :: rest ∧ t.start = utf8Width before ∧
      LexemeAt ctx c rest ⟨some t.kind, more⟩ ∧ t.text.toList = c :: rest.take more := by
  obtain ⟨ctx, before, c, rest, more, hcs, hstart, hl, htext⟩ :=
    (tokenize_eq_ok_iff.mp h).exists_lexemeAt ht
  refine ⟨ctx, src.toList.take (hashbangLength src.toList) ++ before, c, rest, more, ?_, ?_, hl,
    htext⟩
  · rw [List.append_assoc, ← hcs, List.take_append_drop]
  · rw [hstart, utf8Width_append]

/-- A literal of an accepted source has its delimiters. -/
theorem isLiteral_of_tokenize {src : String} {ts : List Token} {t : Token}
    (h : tokenize src = .ok ts) (ht : t ∈ ts) (hkind : t.kind ∈ literalKinds) :
    IsLiteral t.kind t.text.toList := by
  obtain ⟨ctx, before, c, rest, more, -, -, hl, htext⟩ := exists_lexemeAt_of_tokenize h ht
  rw [htext]
  exact hl.isLiteral hkind

/-- The characters that go on with an identifier are all read. -/
theorem isIdentPart_drop_identLength (cs : List Char) :
    ∀ c ∈ (cs.drop (identLength cs)).head?, isIdentPart c = false := by
  induction cs with
  | nil => nofun
  | cons d cs ih =>
    intro c hc
    by_cases hd : isIdentPart d = true
    · rw [identLength, List.takeWhile_cons_of_pos hd, List.length_cons, List.drop_succ_cons] at hc
      exact ih c hc
    · rw [identLength, List.takeWhile_cons_of_neg hd, List.length_nil, List.drop_zero,
        List.head?_cons] at hc
      cases hc
      simpa using hd

/-- An identifier does not stop before a character that goes on with it. -/
theorem ident_maximal {src : String} {ts : List Token} {t : Token} (h : tokenize src = .ok ts)
    (ht : t ∈ ts) (hkind : t.kind = .ident) {before after : List Char}
    (hsrc : src.toList = before ++ (t.text.toList ++ after)) (hstart : t.start = utf8Width before) :
    ∀ c ∈ after.head?, isIdentPart c = false := by
  obtain ⟨ctx, before', c, rest, more, hsrc', hstart', hl, htext⟩ :=
    exists_lexemeAt_of_tokenize h ht
  obtain ⟨mid, rfl, hmid⟩ := exists_append_of_width_le (hsrc.symm.trans hsrc')
    (hstart.symm.trans hstart').le
  have hnil : mid = [] := by
    rw [hstart, utf8Width_append] at hstart'
    exact utf8Width_eq_zero_iff.mp (by omega)
  rw [hnil, List.nil_append, htext, List.cons_append] at hmid
  obtain ⟨-, hrest⟩ := List.cons.inj hmid
  rw [hkind] at hl
  have hmore : more = identLength rest := by
    cases hl with
    | template _ hn => rcases templateLength_kind hn with h | h <;> cases h
    | ident => rfl
  have hafter : after = rest.drop (identLength rest) := by
    refine @List.append_cancel_left _ (rest.take more) _ _ ?_
    rw [hrest, ← hmore, List.take_append_drop]
  rw [hafter]
  exact isIdentPart_drop_identLength rest

/-! ## Gaps before a token -/

/-- The characters at the start of a gap. -/
theorem Gap.head?_mem {rest gap : List Char} (h : Gap rest gap) :
    ∀ c ∈ gap.head?, c ∈ '/' :: blanks := by
  intro c hc
  cases h with
  | nil => cases hc
  | cons hpiece _ =>
    cases hpiece with
    | blank hb =>
      cases hc
      exact List.mem_cons_of_mem _ hb
    | lineComment | blockComment =>
      cases hc
      exact List.mem_cons_self

/-- The character before a token that comes after a gap. -/
theorem Gap.getLast?_mem {c : Char} {rest gap : List Char} (h : Gap (c :: rest) gap)
    (hc : c ≠ '\n') : ∀ d ∈ gap.getLast?, d ∈ '/' :: blanks := by
  induction h with
  | nil => nofun
  | @cons piece gap hpiece _ ih =>
    intro d hd
    by_cases hgap : gap = []
    · subst hgap
      rw [List.append_nil] at hd
      cases hpiece with
      | blank hb =>
        cases hd
        exact List.mem_cons_of_mem _ hb
      -- a line comment goes on to the end of the line
      | lineComment _ hrest =>
        rcases hrest with h | h
        · cases h
        · cases h
          exact absurd rfl hc
      | @blockComment body =>
        have hlast : ('/' :: '*' :: (body ++ ['*', '/'])).getLast? = some '/' := by
          simp [List.getLast?_cons]
        rw [hlast] at hd
        cases hd
        exact List.mem_cons_self
    · refine ih d ?_
      rwa [List.getLast?_append_of_ne_nil _ hgap] at hd

/-- After blanks and a character that starts no gap a token starts at the character or before it. -/
theorem Gap.head?_of_blanks {c : Char} {rest gap bs tail : List Char} (h : Gap rest gap)
    (heq : gap ++ rest = bs ++ c :: tail) (hbs : ∀ b ∈ bs, b ∈ blanks) (hc : c ∉ '/' :: blanks) :
    ∃ d, rest.head? = some d ∧ (d = c ∨ d ∈ blanks) := by
  induction h generalizing bs with
  | nil =>
    rw [List.nil_append] at heq
    rw [heq]
    cases bs with
    | nil => exact ⟨c, rfl, .inl rfl⟩
    | cons b bs => exact ⟨b, rfl, .inr (hbs b List.mem_cons_self)⟩
  | @cons piece gap hpiece hgap ih =>
    cases bs with
    | nil =>
      -- a gap does not start with the character
      have hhead := (Gap.cons hpiece hgap).head?_mem
      cases hpiece with
      | blank | lineComment | blockComment =>
        obtain ⟨rfl, -⟩ := List.cons.inj heq
        exact absurd (hhead _ rfl) hc
    | cons b bs =>
      cases hpiece with
      | blank =>
        exact ih (List.cons.inj heq).2 fun b hb => hbs b (List.mem_cons_of_mem _ hb)
      -- a comment does not start with a blank
      | lineComment | blockComment =>
        obtain ⟨rfl, -⟩ := List.cons.inj heq
        exact absurd (hbs '/' List.mem_cons_self) (by decide)

end EdgeBundle.Lexer
