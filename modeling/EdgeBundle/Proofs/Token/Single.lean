import EdgeBundle.Proofs.Token.Cover

/-!
# Texts of one token

A text that is one string, number or identifier is the same token wherever it stands before a
character that none of them goes on with. So the tokens of a longer text can be put together from
those of its parts.

## Main definitions

* `IsToken`: a text that is one token.
* `EndsWord`, `EndsName`: text before which strings, numbers and identifiers end, and before which
  identifiers end.

## Main statements

* `IsToken.scans`: a run that starts with a text of one token.
* `Scans.str`, `Scans.punct`, `Scans.bracket`: a run that starts with a quoted text or a punctuator.
-/

namespace EdgeBundle.Lexer

/-- The text is one token of the class and nothing else. -/
def IsToken (kind : TokenKind) (text : String) : Prop :=
  tokenize text = .ok [⟨kind, 0, text⟩]

instance (kind : TokenKind) (text : String) : Decidable (IsToken kind text) :=
  inferInstanceAs (Decidable (tokenize text = .ok [⟨kind, 0, text⟩]))

/-- No number and no identifier goes on with the first character of the text. -/
def EndsWord (rest : List Char) : Prop :=
  ∀ d ∈ rest.head?, isIdentPart d = false ∧ d ≠ '.' ∧ d ≠ '+' ∧ d ≠ '-'

/-- No identifier goes on with the first character of the text. -/
def EndsName (rest : List Char) : Prop :=
  ∀ d ∈ rest.head?, isIdentPart d = false

theorem endsName_cons {d : Char} {rest : List Char} (hd : isIdentPart d = false) :
    EndsName (d :: rest) := by
  intro c hc
  cases hc
  exact hd

theorem EndsWord.endsName {rest : List Char} (h : EndsWord rest) : EndsName rest :=
  fun d hd => (h d hd).1

theorem endsWord_cons {d : Char} {rest : List Char}
    (hd : isIdentPart d = false ∧ d ≠ '.' ∧ d ≠ '+' ∧ d ≠ '-') : EndsWord (d :: rest) := by
  intro e he
  cases he
  exact hd

/-! ## Lengths before more text -/

/-- More text after its closing quote leaves a string as it is. -/
theorem stringLength_append {quote : Char} {n m : Nat} {cs : List Char}
    (h : stringLength quote n cs = some m) (rest : List Char) :
    stringLength quote n (cs ++ rest) = some m := by
  fun_induction stringLength quote n cs with
  | case1 | case2 | case4 => cases h
  | case3 n d cs ih => exact ih h
  -- the closing quote
  | case5 n cs hesc hline =>
    cases h
    rw [List.cons_append, stringLength, if_neg hline, if_pos rfl]
    exact fun hd => absurd hd hesc
  | case6 n d cs hesc hline hquote ih =>
    rw [List.cons_append, stringLength, if_neg hline, if_neg hquote, ih h]
    exact fun hd => absurd hd hesc

/-- A string does not reach past the text in which it is closed. -/
theorem stringLength_le {quote : Char} {n m : Nat} {cs : List Char}
    (h : stringLength quote n cs = some m) : m ≤ n + cs.length := by
  fun_induction stringLength quote n cs with
  | case1 | case2 | case4 => cases h
  | case3 n d cs ih =>
    have := ih h
    simp only [List.length_cons]
    omega
  | case5 n cs =>
    cases h
    simp only [List.length_cons]
    omega
  | case6 n d cs _ _ _ ih =>
    have := ih h
    simp only [List.length_cons]
    omega

/-- A number does not go on into text that ends words. -/
theorem numberLength_append {hex : Bool} {last : Char} {n : Nat} {cs rest : List Char}
    (hrest : EndsWord rest) :
    numberLength hex last n (cs ++ rest) = numberLength hex last n cs := by
  induction cs generalizing last n with
  | cons d cs ih => simp only [List.cons_append, numberLength, ih]
  | nil =>
    cases rest with
    | nil => rfl
    | cons d rest =>
      obtain ⟨hpart, hdot, hplus, hminus⟩ := hrest d rfl
      simp only [isIdentPart, isIdentStart, Bool.or_eq_false_iff] at hpart
      simp [numberLength, Char.isAlphanum, hpart, hdot, hplus, hminus]

theorem numberLength_le (hex : Bool) (last : Char) (n : Nat) (cs : List Char) :
    numberLength hex last n cs ≤ n + cs.length := by
  fun_induction numberLength hex last n cs with
  | case1 => exact Nat.le_refl _
  | case2 last n d cs _ _ ih =>
    rw [List.length_cons]
    omega
  | case3 => exact Nat.le_add_right _ _

/-- An identifier does not go on into text that ends it. -/
theorem EndsName.identLength_append {cs rest : List Char} (hrest : EndsName rest) :
    identLength (cs ++ rest) = identLength cs := by
  have hnone : rest.takeWhile isIdentPart = [] := by
    cases rest with
    | nil => rfl
    | cons d rest => simp [hrest d rfl]
  rw [identLength, identLength, List.takeWhile_append, hnone, List.append_nil]
  split
  next h => exact h.symm
  next => rfl

theorem identLength_append {cs rest : List Char} (hrest : EndsWord rest) :
    identLength (cs ++ rest) = identLength cs :=
  hrest.endsName.identLength_append

theorem identLength_le (cs : List Char) : identLength cs ≤ cs.length :=
  (List.takeWhile_sublist _).length_le

namespace EndsWord

variable {cs rest : List Char} (hrest : EndsWord rest)

include hrest

/-- A character of a word comes next exactly if it did without the text that ends words. -/
theorem head?_append_beq (d : Char) (hd : isIdentPart d = true) :
    ((cs ++ rest).head? == some d) = (cs.head? == some d) := by
  cases cs with
  | cons => rfl
  | nil =>
    have hne : rest.head? ≠ some d := fun he => by simp [(hrest d he).1] at hd
    simpa using hne

theorem any_isDigit_append : (cs ++ rest).head?.any Char.isDigit = cs.head?.any Char.isDigit := by
  cases cs with
  | cons => rfl
  | nil =>
    cases rest with
    | nil => rfl
    | cons d rest =>
      have hpart := (hrest d rfl).1
      rw [isIdentPart, Bool.or_eq_false_iff] at hpart
      exact hpart.2

end EndsWord

/-! ## Tokens before more text -/

/-- A text of one token is read as that token. -/
theorem IsToken.exists_lexemeAt {kind : TokenKind} {text : String} (h : IsToken kind text) :
    ∃ c cs more, text.toList = c :: cs ∧ LexemeAt {} c cs ⟨some kind, more⟩ ∧
      cs.length ≤ more := by
  have hrun := tokenize_eq_ok_iff.mp h
  -- a hashbang line would move the token away from the start
  have hline : text.toList.take (hashbangLength text.toList) = [] :=
    utf8Width_eq_zero_iff.mp (Nat.le_zero.mp (hrun.covers.offset_le_start List.mem_cons_self))
  have hdrop := List.take_append_drop (hashbangLength text.toList) text.toList
  rw [hline, List.nil_append] at hdrop
  rw [hline, hdrop] at hrun
  cases hcs : text.toList with
  | nil => rw [hcs] at hrun; cases hrun
  | cons c cs =>
    rw [hcs] at hrun
    cases hrun with
    | gap hl hrest =>
      have hstart := hrest.covers.offset_le_start List.mem_cons_self
      rw [utf8Width_nil, Nat.zero_add] at hstart
      cases utf8Width_eq_zero_iff.mp (Nat.le_zero.mp hstart)
    | @token _ _ _ _ _ more _ _ hl ht hrest =>
      have htext : c :: cs.take more = c :: cs := by
        rw [← hcs, (Token.mk.inj ht).2.2, String.toList_ofList]
      rw [← (Token.mk.inj ht).1] at hl
      refine ⟨c, cs, more, rfl, hl, ?_⟩
      have := congrArg List.length (List.cons.inj htext).2
      rw [List.length_take] at this
      omega

/-- A string, number or identifier that takes all of a text is the same lexeme in any context and
before any text that ends it. -/
theorem LexemeAt.append {ctx : Context} {c : Char} {cs rest : List Char} {kind : TokenKind}
    {more : Nat} (h : LexemeAt {} c cs ⟨some kind, more⟩) (hmore : cs.length ≤ more)
    (hkind : kind ∈ [TokenKind.number, .str, .ident]) (hrest : EndsWord rest) :
    LexemeAt ctx c (cs ++ rest) ⟨some kind, cs.length⟩ := by
  cases h with
  | template _ hn => rcases templateLength_kind hn with rfl | rfl <;> simp at hkind
  | regex => simp at hkind
  | punct => simp at hkind
  | str hc hn =>
    have hlen := stringLength_le hn
    rw [Nat.zero_add] at hlen
    rw [Nat.le_antisymm hlen hmore] at hn
    exact .str hc (stringLength_append hn rest)
  | number hc =>
    have hle := numberLength_le (c = '0' && (cs.head? == some 'x' || cs.head? == some 'X')) c 0 cs
    rw [Nat.zero_add] at hle
    rw [← Nat.le_antisymm hle hmore, ← numberLength_append hrest,
      ← hrest.head?_append_beq 'x' (by decide), ← hrest.head?_append_beq 'X' (by decide)]
    refine .number ?_
    rwa [hrest.any_isDigit_append]
  | ident hc =>
    rw [← Nat.le_antisymm (identLength_le cs) hmore, ← identLength_append hrest]
    exact .ident hc

/-- A run that starts with a text of one lexeme. -/
theorem scans_of_lexemeAt {ctx : Context} {offset : Nat} {kind : TokenKind} {text : String}
    {c : Char} {cs rest : List Char} {ts : List Token} (htext : text.toList = c :: cs)
    (hl : LexemeAt ctx c (cs ++ rest) ⟨some kind, cs.length⟩)
    (hscan : Scans (ctx.push ⟨kind, offset, text⟩) (offset + text.utf8ByteSize) rest ts) :
    Scans ctx offset (text.toList ++ rest) (⟨kind, offset, text⟩ :: ts) := by
  have hwhole : text = String.ofList (c :: (cs ++ rest).take cs.length) := by
    rw [List.take_left, ← htext, String.ofList_toList]
  have hsize : text.utf8ByteSize = utf8Width (c :: (cs ++ rest).take cs.length) := by
    rw [← utf8Width_toList, List.take_left, htext]
  have hdrop : (cs ++ rest).drop cs.length = rest := List.drop_left
  rw [htext, List.cons_append]
  refine .token hl (by rw [← hwhole]) ?_
  rwa [hdrop, ← hsize]

/-- A text of one string, number or identifier is that token wherever it stands before text that
ends it. -/
theorem IsToken.scans {kind : TokenKind} {text : String} (h : IsToken kind text)
    (hkind : kind ∈ [TokenKind.number, .str, .ident]) {ctx : Context} {offset : Nat}
    {rest : List Char} {ts : List Token} (hrest : EndsWord rest)
    (hscan : Scans (ctx.push ⟨kind, offset, text⟩) (offset + text.utf8ByteSize) rest ts) :
    Scans ctx offset (text.toList ++ rest) (⟨kind, offset, text⟩ :: ts) := by
  obtain ⟨c, cs, more, htext, hl, hmore⟩ := h.exists_lexemeAt
  exact scans_of_lexemeAt htext (hl.append hmore hkind hrest) hscan

/-- A text of one identifier starts with a character that starts no number and no point. -/
theorem IsToken.exists_cons_of_ident {text : String} (h : IsToken .ident text) :
    ∃ c cs, text.toList = c :: cs ∧ (c = '#' ∨ isIdentStart c = true) ∧
      identLength cs = cs.length := by
  obtain ⟨c, cs, more, htext, hl, hmore⟩ := h.exists_lexemeAt
  cases hl with
  | template _ hn => rcases templateLength_kind hn with h | h <;> cases h
  | ident hc => exact ⟨c, cs, htext, hc, Nat.le_antisymm (identLength_le cs) hmore⟩

/-- An identifier may stand before a point too. -/
theorem IsToken.scans_ident {text : String} (h : IsToken .ident text) {ctx : Context} {offset : Nat}
    {rest : List Char} {ts : List Token} (hrest : EndsName rest)
    (hscan : Scans (ctx.push ⟨.ident, offset, text⟩) (offset + text.utf8ByteSize) rest ts) :
    Scans ctx offset (text.toList ++ rest) (⟨.ident, offset, text⟩ :: ts) := by
  obtain ⟨c, cs, htext, hc, hlength⟩ := h.exists_cons_of_ident
  refine scans_of_lexemeAt htext ?_ hscan
  rw [← hlength, ← hrest.identLength_append]
  exact .ident hc

/-- A blank before tokens adds none. -/
theorem Scans.blank {ctx : Context} {offset : Nat} {cs : List Char} {ts : List Token}
    (h : Scans ctx (offset + 1) cs ts) : Scans ctx offset (' ' :: cs) ts :=
  .gap (.blank rfl) h

/-- A character that starts only a punctuator, and no longer one than itself. -/
theorem Scans.mark {ctx : Context} {offset : Nat} {c : Char} {cs : List Char} {ts : List Token}
    (hstarts : StartsPunct ctx c cs) (hlong : longPunct? (c :: cs) = none) (hsize : c.utf8Size = 1)
    (h : Scans (ctx.push ⟨.punct, offset, String.singleton c⟩) (offset + 1) cs ts) :
    Scans ctx offset (c :: cs) (⟨.punct, offset, String.singleton c⟩ :: ts) := by
  have hlen : punctLength (c :: cs) = 0 := by simp [punctLength, hlong]
  have hl : LexemeAt ctx c cs ⟨some .punct, 0⟩ := hlen ▸ .punct hstarts
  exact .token hl rfl (by simpa [hsize] using h)

/-- A punctuator of one character that is no part of a longer one. -/
theorem Scans.punct {ctx : Context} {offset : Nat} {c : Char} {cs : List Char} {ts : List Token}
    (hc : c ∈ ['=', ',', ';']) (hlong : longPunct? (c :: cs) = none)
    (h : Scans (ctx.push ⟨.punct, offset, String.singleton c⟩) (offset + 1) cs ts) :
    Scans ctx offset (c :: cs) (⟨.punct, offset, String.singleton c⟩ :: ts) := by
  have hstarts : StartsPunct ctx c cs := by
    simp only [List.mem_cons, List.not_mem_nil, or_false] at hc
    rcases hc with rfl | rfl | rfl <;> constructor <;> simp [isBlank, isIdentStart]
  have hsize : c.utf8Size = 1 := by
    simp only [List.mem_cons, List.not_mem_nil, or_false] at hc
    rcases hc with rfl | rfl | rfl <;> rfl
  exact .mark hstarts hlong hsize h

/-- A bracket or an asterisk that is no part of a longer punctuator. A closing brace must not end a
substitution. -/
theorem Scans.bracket {ctx : Context} {offset : Nat} {c : Char} {cs : List Char} {ts : List Token}
    (hc : c ∈ ['(', ')', '*', '\x7b', '\x7d'])
    (hctx : c = '\x7d' → ctx.closesSubstitution = false) (hlong : longPunct? (c :: cs) = none)
    (h : Scans (ctx.push ⟨.punct, offset, String.singleton c⟩) (offset + 1) cs ts) :
    Scans ctx offset (c :: cs) (⟨.punct, offset, String.singleton c⟩ :: ts) := by
  have hstarts : StartsPunct ctx c cs := by
    simp only [List.mem_cons, List.not_mem_nil, or_false] at hc
    rcases hc with rfl | rfl | rfl | rfl | rfl <;> constructor <;>
      simp_all [isBlank, isIdentStart]
  have hsize : c.utf8Size = 1 := by
    simp only [List.mem_cons, List.not_mem_nil, or_false] at hc
    rcases hc with rfl | rfl | rfl | rfl | rfl <;> rfl
  exact .mark hstarts hlong hsize h

/-- A string without escapes and line breaks ends at the first quote. -/
theorem stringLength_append_quote {cs : List Char} (hquote : '\'' ∉ cs) (hescape : '\\' ∉ cs)
    (hline : '\n' ∉ cs) (n : Nat) (rest : List Char) :
    stringLength '\'' n (cs ++ '\'' :: rest) = some (n + cs.length + 1) := by
  induction cs generalizing n with
  | nil =>
    rw [List.nil_append, stringLength, if_neg (by decide), if_pos rfl]
    · rfl
    · decide
  | cons c cs ih =>
    rw [List.mem_cons, not_or] at hquote hescape hline
    rw [List.cons_append, stringLength, if_neg (Ne.symm hline.1), if_neg (Ne.symm hquote.1),
      ih hquote.2 hescape.2 hline.2, List.length_cons]
    · congr 1
      omega
    · exact fun hc => absurd hc.symm hescape.1

/-- A string without escapes in single quotes. -/
theorem Scans.str {ctx : Context} {offset : Nat} {text : String} {rest : List Char}
    {ts : List Token} (hquote : '\'' ∉ text.toList) (hescape : '\\' ∉ text.toList)
    (hline : '\n' ∉ text.toList)
    (h : ∀ ctx, Scans ctx (offset + text.utf8ByteSize + 2) rest ts) :
    Scans ctx offset ('\'' :: (text.toList ++ '\'' :: rest))
      (⟨.str, offset, "'" ++ text ++ "'"⟩ :: ts) := by
  have hlen := stringLength_append_quote hquote hescape hline 0 rest
  have htake : (text.toList ++ '\'' :: rest).take (0 + text.toList.length + 1) =
      text.toList ++ ['\''] := by
    rw [Nat.zero_add, ← List.singleton_append, ← List.append_assoc]
    exact List.take_left' (by simp)
  have hdrop : (text.toList ++ '\'' :: rest).drop (0 + text.toList.length + 1) = rest := by
    rw [Nat.zero_add, ← List.singleton_append, ← List.append_assoc]
    exact List.drop_left' (by simp)
  have hwidth : offset + utf8Width ('\'' :: (text.toList ++ ['\''])) =
      offset + text.utf8ByteSize + 2 := by
    have hsize : '\''.utf8Size = 1 := rfl
    rw [utf8Width_cons, utf8Width_append, utf8Width_toList, utf8Width_cons, utf8Width_nil, hsize]
    omega
  refine .token (.str (.inl rfl) hlen) ?_ ?_
  · rw [htake]
    simp [String.append_assoc]
  · rw [htake, hdrop, hwidth]
    exact h _

end EdgeBundle.Lexer
