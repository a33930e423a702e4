import EdgeBundle.Token.Lexer

/-!
# Forms of lexemes

What the lexer reads at one place is a blank, a comment or a token of some class. `LexemeAt` lists
the forms with all that is known of each, so that no other proof takes the lexer apart.

## Main definitions

* `LexemeAt`: the forms of a lexeme at a place of a source.

## Main statements

* `lexeme_eq_ok_iff`: the lexer reads exactly these.
-/

namespace EdgeBundle

namespace Token

theorem isPunct_iff {t : Token} {p : String} :
    t.isPunct p = true ↔ t.kind = .punct ∧ t.text = p := by
  rw [isPunct, Bool.and_eq_true, beq_iff_eq, beq_iff_eq]

theorem isWord_iff {t : Token} {w : String} : t.isWord w = true ↔ t.kind = .ident ∧ t.text = w := by
  rw [isWord, Bool.and_eq_true, beq_iff_eq, beq_iff_eq]

theorem isPunct_eq_false {t : Token} (h : t.kind ≠ .punct) (p : String) : t.isPunct p = false :=
  Bool.eq_false_iff.mpr fun hp => h (isPunct_iff.mp hp).1

theorem isWord_eq_false {t : Token} (h : t.kind ≠ .ident) (w : String) : t.isWord w = false :=
  Bool.eq_false_iff.mpr fun hw => h (isWord_iff.mp hw).1

/-- A token is one punctuator only. -/
theorem isPunct_eq_false_of_ne {t : Token} {p q : String} (h : t.isPunct p = true) (hne : p ≠ q) :
    t.isPunct q = false :=
  Bool.eq_false_iff.mpr fun hq => hne ((isPunct_iff.mp h).2.symm.trans (isPunct_iff.mp hq).2)

/-- A token is one word only. -/
theorem isWord_eq_false_of_ne {t : Token} {w v : String} (h : t.isWord w = true) (hne : w ≠ v) :
    t.isWord v = false :=
  Bool.eq_false_iff.mpr fun hv => hne ((isWord_iff.mp h).2.symm.trans (isWord_iff.mp hv).2)

/-- A word is no punctuator. -/
theorem isPunct_eq_false_of_isWord {t : Token} {w : String} (h : t.isWord w = true) (p : String) :
    t.isPunct p = false :=
  isPunct_eq_false (by simp [(isWord_iff.mp h).1]) p

/-- A punctuator is no word. -/
theorem isWord_eq_false_of_isPunct {t : Token} {p : String} (h : t.isPunct p = true) (w : String) :
    t.isWord w = false :=
  isWord_eq_false (by simp [(isPunct_iff.mp h).1]) w

end Token

namespace Lexer

/-- Characters of a punctuator after its first one. -/
def punctLength (cs : List Char) : Nat :=
  ((longPunct? cs).map fun p => p.length - 1).getD 0

/-- No form of lexeme but a punctuator starts with `c` before `cs`. -/
structure StartsPunct (ctx : Context) (c : Char) (cs : List Char) : Prop where
  /-- It is no blank. -/
  not_blank : isBlank c = false
  /-- It opens neither a string nor a template literal. -/
  not_quote : c ≠ '\'' ∧ c ≠ '"' ∧ c ≠ '`'
  /-- It does not end a substitution. -/
  not_closing : ¬ (c = '}' ∧ ctx.closesSubstitution = true)
  /-- A slash is a division. -/
  divides : c = '/' → cs.head? ≠ some '/' ∧ cs.head? ≠ some '*' ∧ ctx.allowsRegex = false
  /-- It starts no number. -/
  not_digit : ¬ (c.isDigit = true ∨ (c = '.' ∧ cs.head?.any Char.isDigit = true))
  /-- It starts no identifier. -/
  not_ident : ¬ (c = '#' ∨ isIdentStart c = true)

/-- The forms of a lexeme that starts with `c` before `cs`. -/
inductive LexemeAt (ctx : Context) (c : Char) (cs : List Char) : Lexeme → Prop
  | blank (hc : isBlank c = true) : LexemeAt ctx c cs ⟨none, 0⟩
  | lineComment (hc : c = '/') (hd : cs.head? = some '/') : LexemeAt ctx c cs ⟨none, lineLength cs⟩
  | blockComment {n : Nat} (hc : c = '/') (hd : cs.head? = some '*')
      (hn : commentLength 1 cs.tail = some n) : LexemeAt ctx c cs ⟨none, n⟩
  | str {n : Nat} (hc : c = '\'' ∨ c = '"') (hn : stringLength c 0 cs = some n) :
      LexemeAt ctx c cs ⟨some .str, n⟩
  | template {kind : TokenKind} {n : Nat}
      (hc : c = '`' ∨ (c = '}' ∧ ctx.closesSubstitution = true))
      (hn : templateLength 0 cs = some (kind, n)) : LexemeAt ctx c cs ⟨some kind, n⟩
  | regex {n : Nat} (hc : c = '/') (hd : cs.head? ≠ some '/' ∧ cs.head? ≠ some '*')
      (hctx : ctx.allowsRegex = true) (hn : regexLength false 0 cs = some n) :
      LexemeAt ctx c cs ⟨some .regex, n + identLength (cs.drop n)⟩
  | number (hc : c.isDigit = true ∨ (c = '.' ∧ cs.head?.any Char.isDigit = true)) :
      LexemeAt ctx c cs ⟨some .number,
        numberLength (c = '0' && (cs.head? == some 'x' || cs.head? == some 'X')) c 0 cs⟩
  | ident (hc : c = '#' ∨ isIdentStart c = true) : LexemeAt ctx c cs ⟨some .ident, identLength cs⟩
  | punct (hc : StartsPunct ctx c cs) : LexemeAt ctx c cs ⟨some .punct, punctLength (c :: cs)⟩

theorem LexemeAt.of_lexeme {ctx : Context} {c : Char} {cs : List Char} {l : Lexeme}
    (h : lexeme ctx c cs = .ok l) : LexemeAt ctx c cs l := by
  -- the tests of the lexer in its order: what one takes has the rule of that test
  simp only [lexeme] at h
  split at h
  next hblank => cases h; exact .blank hblank
  split at h
  next hline => cases h; exact .lineComment hline.1 hline.2
  split at h
  next hblock =>
    split at h
    next n hn => cases h; exact .blockComment hblock.1 hblock.2 hn
    next => cases h
  split at h
  next hquote =>
    split at h
    next n hn => cases h; exact .str hquote hn
    next => cases h
  split at h
  next htemplate =>
    split at h
    next kind n hn => cases h; exact .template htemplate hn
    next => cases h
  split at h
  next hslash =>
    split at h
    next n hn =>
      cases h
      refine .regex hslash.1 ⟨?_, ?_⟩ hslash.2 hn
      · intro hd; simp_all
      · intro hd; simp_all
    next => cases h
  split at h
  next hdigit => cases h; exact .number hdigit
  split at h
  next hident => cases h; exact .ident hident
  next hblank hline hblock hquote htemplate hslash hdigit hident =>
    -- a punctuator is what all the tests have left
    have hpunct : StartsPunct ctx c cs := by
      constructor <;> simp_all
    split at h
    next p hp =>
      cases h
      have hlen : punctLength (c :: cs) = p.length - 1 := by simp [punctLength, hp]
      exact hlen ▸ .punct hpunct
    next hp =>
      cases h
      have hlen : punctLength (c :: cs) = 0 := by simp [punctLength, hp]
      exact hlen ▸ .punct hpunct

theorem templateLength_kind {n m : Nat} {cs : List Char} {kind : TokenKind}
    (h : templateLength n cs = some (kind, m)) : kind = .template ∨ kind = .templateHead := by
  fun_induction templateLength n cs with
  | case1 | case2 => cases h
  | case3 _ _ _ ih => exact ih h
  | case4 => cases h; exact .inl rfl
  | case5 => cases h; exact .inr rfl
  | case6 _ _ _ _ _ _ ih => exact ih h

/-! ## The forms are disjoint -/

/-- Characters that open a gap or a literal, or end a substitution. -/
def openers : List Char :=
  [' ', '\t', '\n', '\r', '\x0b', '\x0c', '/', '\'', '"', '`', '}']

theorem not_mem_openers_of_isDigit {c : Char} (hc : c.isDigit = true) : c ∉ openers := by
  intro hmem
  have hopeners : openers.all (!·.isDigit) = true := by decide
  have hnot := List.all_eq_true.mp hopeners c hmem
  rw [hc] at hnot
  cases hnot

theorem not_mem_openers_of_isIdentStart {c : Char} (hc : isIdentStart c = true) :
    c ∉ openers := by
  intro hmem
  have hopeners : openers.all (!isIdentStart ·) = true := by decide
  have hnot := List.all_eq_true.mp hopeners c hmem
  rw [hc] at hnot
  cases hnot

/-- A digit does not start an identifier. -/
theorem isIdentStart_eq_false_of_isDigit {c : Char} (hc : c.isDigit = true) :
    isIdentStart c = false := by
  have hval : 48 ≤ c.toNat ∧ c.toNat ≤ 57 := by
    simpa [Char.isDigit, UInt32.le_iff_toNat_le] using hc
  have hdigits : ∀ i : Fin 10, isIdentStart (Char.ofNat (48 + i)) = false := by decide
  have hdigit := hdigits ⟨c.toNat - 48, by omega⟩
  rwa [Nat.add_sub_cancel' hval.1, Char.ofNat_toNat] at hdigit

/-- What a character that opens nothing else starts does not hang on the context. -/
theorem lexeme_of_not_mem_openers {ctx : Context} {c : Char} {cs : List Char}
    (hc : c ∉ openers) :
    lexeme ctx c cs =
      if c.isDigit ∨ (c = '.' ∧ cs.head?.any Char.isDigit) then
        .ok ⟨some .number,
          numberLength (c = '0' && (cs.head? == some 'x' || cs.head? == some 'X')) c 0 cs⟩
      else if c = '#' ∨ isIdentStart c then .ok ⟨some .ident, identLength cs⟩
      else .ok ⟨some .punct, punctLength (c :: cs)⟩ := by
  simp only [openers, List.mem_cons, List.not_mem_nil, or_false, not_or] at hc
  have hblank : isBlank c = false := by simp [isBlank, hc]
  simp only [lexeme, hblank, hc, Bool.false_eq_true, false_and, or_self, if_false]
  cases hp : longPunct? (c :: cs) <;> simp [punctLength, hp]

/-- The forms of a lexeme are exactly what the lexer reads. -/
theorem lexeme_eq_ok_iff {ctx : Context} {c : Char} {cs : List Char} {l : Lexeme} :
    lexeme ctx c cs = .ok l ↔ LexemeAt ctx c cs l := by
  refine ⟨.of_lexeme, fun h => ?_⟩
  cases h with
  | blank hc => simp [lexeme, hc]
  | lineComment hc hd => subst hc; simp [lexeme, hd, isBlank]
  | blockComment hc hd hn => subst hc; simp [lexeme, hd, hn, isBlank]
  | str hc hn => rcases hc with rfl | rfl <;> simp [lexeme, hn, isBlank]
  | template hc hn =>
    rcases hc with rfl | ⟨rfl, hctx⟩
    · simp [lexeme, hn, isBlank]
    · simp [lexeme, hn, hctx, isBlank]
  | regex hc hd hctx hn => subst hc; simp [lexeme, hd.1, hd.2, hctx, hn, isBlank]
  | number hc =>
    have hopen : c ∉ openers := by
      rcases hc with hc | ⟨rfl, -⟩
      · exact not_mem_openers_of_isDigit hc
      · decide
    rw [lexeme_of_not_mem_openers hopen, if_pos hc]
  | ident hc =>
    have hopen : c ∉ openers := by
      rcases hc with rfl | hc
      · decide
      · exact not_mem_openers_of_isIdentStart hc
    have hdigit : ¬ (c.isDigit = true ∨ (c = '.' ∧ cs.head?.any Char.isDigit = true)) := by
      rcases hc with rfl | hc
      · simp
      · rintro (hd | ⟨rfl, -⟩)
        · rw [isIdentStart_eq_false_of_isDigit hd] at hc
          cases hc
        · cases hc
    rw [lexeme_of_not_mem_openers hopen, if_neg hdigit, if_pos hc]
  | punct hc =>
    obtain ⟨hblank, hquote, hclosing, hdivides, hdigit, hident⟩ := hc
    simp only [lexeme, hblank, hquote, hclosing, hdigit, hident, Bool.false_eq_true, or_self,
      if_false]
    by_cases hslash : c = '/'
    · obtain ⟨h1, h2, h3⟩ := hdivides hslash
      simp only [h1, h2, h3, Bool.false_eq_true, and_false, if_false]
      cases hp : longPunct? (c :: cs) <;> simp [punctLength, hp]
    · simp only [hslash, false_and, if_false]
      cases hp : longPunct? (c :: cs) <;> simp [punctLength, hp]

/-- A lexeme has one form. -/
theorem LexemeAt.unique {ctx : Context} {c : Char} {cs : List Char} {l l' : Lexeme}
    (h : LexemeAt ctx c cs l) (h' : LexemeAt ctx c cs l') : l = l' :=
  Except.ok.inj ((lexeme_eq_ok_iff.mpr h).symm.trans (lexeme_eq_ok_iff.mpr h'))

end Lexer

end EdgeBundle
