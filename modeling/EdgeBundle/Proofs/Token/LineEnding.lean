import EdgeBundle.Proofs.Token.Enclosed

/-!
# Line endings

A newline with a carriage return before it is read like one without: both characters are blanks, a
line comment takes the carriage return with it, and block comments and template text just go on.
But a backslash takes one character with it. Before a carriage return it takes that one only, and
the bare newline then leaves the string or regular expression open.

## Main definitions

* `crlf`: a text with a carriage return before every newline.
* `Token.crlf`: what becomes of a token.
* `Token.OnOneLine`: tokens that are no string or regular expression over several lines.

## Main statements

* `LexemeAt.crlf` and `LexemeAt.of_crlf`: one lexeme with either ending of lines.
* `Scans.crlf` and `Scans.of_crlf`: a run with either ending of lines.
* `tokenize_crlf`: the tokens of a source with the other line endings.
-/

namespace EdgeBundle

/-- The text with a carriage return before every newline. -/
def crlf (cs : List Char) : List Char :=
  cs.flatMap fun c => if c = '\n' then ['\r', '\n'] else [c]

@[simp]
theorem crlf_nil : crlf [] = [] :=
  rfl

@[simp]
theorem crlf_newline (cs : List Char) : crlf ('\n' :: cs) = '\r' :: '\n' :: crlf cs :=
  rfl

theorem crlf_cons {c : Char} (hc : c ≠ '\n') (cs : List Char) : crlf (c :: cs) = c :: crlf cs := by
  rw [crlf, List.flatMap_cons, if_neg hc, crlf, List.singleton_append]

@[simp]
theorem crlf_append (cs ds : List Char) : crlf (cs ++ ds) = crlf cs ++ crlf ds :=
  List.flatMap_append

theorem crlf_of_not_mem {cs : List Char} (h : '\n' ∉ cs) : crlf cs = cs := by
  induction cs with
  | nil => rfl
  | cons c cs ih =>
    rw [List.mem_cons, not_or] at h
    rw [crlf_cons (Ne.symm h.1), ih h.2]

/-- The text with a carriage return before every newline, around a place. -/
theorem crlf_take_append_drop (n : Nat) (cs : List Char) :
    crlf cs = crlf (cs.take n) ++ crlf (cs.drop n) := by
  rw [← crlf_append, List.take_append_drop]

theorem crlf_of_not_mem_take {n : Nat} {cs : List Char} (h : '\n' ∉ cs.take n) :
    crlf cs = cs.take n ++ crlf (cs.drop n) := by
  rw [crlf_take_append_drop n, crlf_of_not_mem h]

/-- A text has as many newlines with carriage returns as without. -/
theorem count_newline_crlf (cs : List Char) : (crlf cs).count '\n' = cs.count '\n' := by
  induction cs with
  | nil => rfl
  | cons c cs ih =>
    by_cases hc : c = '\n'
    · rw [hc, crlf_newline, List.count_cons_of_ne (by decide), List.count_cons_self,
        List.count_cons_self, ih]
    · rw [crlf_cons hc, List.count_cons_of_ne hc, List.count_cons_of_ne hc, ih]

/-- A text has the same first character, unless it starts with a line break. -/
theorem head?_crlf {d : Char} (hreturn : d ≠ '\r') (hline : d ≠ '\n') (cs : List Char) :
    (crlf cs).head? = some d ↔ cs.head? = some d := by
  cases cs with
  | nil => rfl
  | cons c cs =>
    by_cases hc : c = '\n'
    · simp [hc, hreturn.symm, hline.symm]
    · rw [crlf_cons hc, List.head?_cons, List.head?_cons]

theorem exists_cons_of_crlf_eq {d : Char} {cs ds : List Char} (hd : d ≠ '\r')
    (h : crlf cs = d :: ds) : ∃ cs', cs = d :: cs' := by
  cases cs with
  | nil => cases h
  | cons c cs =>
    by_cases hc : c = '\n'
    · rw [hc, crlf_newline] at h
      exact absurd (List.cons.inj h).1.symm hd
    · rw [crlf_cons hc] at h
      exact ⟨cs, by rw [(List.cons.inj h).1]⟩

/-- A text is the same up to its first line break. -/
theorem exists_crlf_split (cs : List Char) :
    ∃ word gap, cs = word ++ gap ∧ crlf cs = word ++ crlf gap ∧ '\n' ∉ word ∧
      Lexer.EndsLine gap := by
  induction cs with
  | nil => exact ⟨[], [], rfl, rfl, by simp, .inl rfl⟩
  | cons c cs ih =>
    by_cases hc : c = '\n'
    · subst hc
      exact ⟨[], _, rfl, rfl, by simp, .inr rfl⟩
    · obtain ⟨word, gap, rfl, hcrlf, hword, hgap⟩ := ih
      refine ⟨c :: word, gap, rfl, by rw [crlf_cons hc, hcrlf, List.cons_append], ?_, hgap⟩
      rw [List.mem_cons, not_or]
      exact ⟨Ne.symm hc, hword⟩

namespace Lexer

/-! ## Lengths of lexemes -/

section Lengths

/-- Whether there is a newline up to a place does not depend on another character in front. -/
theorem and_newline_not_mem_take_cons {p : Prop} {n m : Nat} {c : Char} {cs : List Char}
    (h : p → n < m) (hc : c ≠ '\n') :
    p ∧ '\n' ∉ cs.take (m - (n + 1)) ↔ p ∧ '\n' ∉ (c :: cs).take (m - n) := by
  refine and_congr_right fun hp => ?_
  rw [take_sub_cons (h hp), List.mem_cons, not_or]
  exact (and_iff_right (Ne.symm hc)).symm

/-- What goes on behind an escaped newline has it. -/
theorem not_and_newline_not_mem_take_escape {p : Prop} {n m : Nat} {cs : List Char}
    (h : p → n + 1 < m) : ¬ (p ∧ '\n' ∉ ('\\' :: '\n' :: cs).take (m - n)) := by
  rintro ⟨hp, hline⟩
  have hlt := h hp
  refine hline ?_
  rw [take_sub_cons (by omega), take_sub_cons hlt]
  simp

/-- A string goes on over carriage returns, but not over newlines. -/
theorem stringLength_crlf {quote : Char} (hquote : quote ≠ '\r') {n m : Nat} {cs : List Char} :
    stringLength quote n (crlf cs) = some m ↔
      stringLength quote n cs = some m ∧ '\n' ∉ cs.take (m - n) := by
  fun_induction stringLength quote n cs with
  | case1 | case2 => simp [crlf_cons, stringLength]
  -- the backslash takes the carriage return, so that the newline is bare
  | case3 n d cs ih =>
    by_cases hd : d = '\n'
    · subst hd
      rw [crlf_cons (by decide), crlf_newline]
      exact iff_of_false (by simp [stringLength])
        (not_and_newline_not_mem_take_escape fun h => Nat.lt_of_succ_lt (stringLength_take h).1)
    · rw [crlf_cons (by decide), crlf_cons hd]
      have hlt (h : stringLength quote (n + 2) cs = some m) : n + 1 < m :=
        Nat.lt_of_succ_lt (stringLength_take h).1
      exact (ih.trans (and_newline_not_mem_take_cons hlt hd)).trans
        (and_newline_not_mem_take_cons (fun h => Nat.lt_of_succ_lt (hlt h)) (by decide))
  | case4 n cs =>
    simp [stringLength, hquote.symm]
  | case5 n cs hesc hline =>
    rw [crlf_cons hline, stringLength, if_neg hline, if_pos rfl]
    · refine (and_iff_left_of_imp fun h => ?_).symm
      cases h
      simp [Ne.symm hline]
    · exact fun hd => absurd hd hesc
  | case6 n d cs hesc hline hclose ih =>
    rw [crlf_cons hline, stringLength, if_neg hline, if_neg hclose, ih]
    · exact and_newline_not_mem_take_cons (fun h => Nat.lt_of_succ_lt (stringLength_take h).1) hline
    · exact fun hd => absurd hd hesc

/-- A regular expression goes on over carriage returns, but not over newlines. -/
theorem regexLength_crlf {inClass : Bool} {n m : Nat} {cs : List Char} :
    regexLength inClass n (crlf cs) = some m ↔
      regexLength inClass n cs = some m ∧ '\n' ∉ cs.take (m - n) := by
  fun_induction regexLength inClass n cs with
  | case1 | case2 => simp [crlf_cons, regexLength]
  | case3 inClass n d cs ih =>
    by_cases hd : d = '\n'
    -- a backslash takes the carriage return with it and leaves the newline
    · subst hd
      rw [crlf_cons (by decide), crlf_newline]
      exact iff_of_false (by simp [regexLength])
        (not_and_newline_not_mem_take_escape fun h => Nat.lt_of_succ_lt (regexLength_take h).1)
    · rw [crlf_cons (by decide), crlf_cons hd]
      have hlt (h : regexLength inClass (n + 2) cs = some m) : n + 1 < m :=
        Nat.lt_of_succ_lt (regexLength_take h).1
      exact (ih.trans (and_newline_not_mem_take_cons hlt hd)).trans
        (and_newline_not_mem_take_cons (fun h => Nat.lt_of_succ_lt (hlt h)) (by decide))
  | case4 inClass n cs => simp [regexLength]
  | case5 inClass n cs hesc hline ih | case6 inClass n cs hesc hline _ ih =>
    rw [crlf_cons hline]
    exact ih.trans
      (and_newline_not_mem_take_cons (fun h => Nat.lt_of_succ_lt (regexLength_take h).1) hline)
  | case7 inClass n d cs hesc hline hopen hclose hslash =>
    rw [crlf_cons hline, regexLength, if_neg hline, if_neg hopen, if_neg hclose, if_pos hslash]
    · refine (and_iff_left_of_imp fun h => ?_).symm
      cases h
      simp [Ne.symm hline]
    · exact fun hd => absurd hd hesc
  | case8 inClass n d cs hesc hline hopen hclose hslash ih =>
    rw [crlf_cons hline, regexLength, if_neg hline, if_neg hopen, if_neg hclose, if_neg hslash, ih]
    · exact and_newline_not_mem_take_cons (fun h => Nat.lt_of_succ_lt (regexLength_take h).1) hline
    · exact fun hd => absurd hd hesc

theorem length_crlf_take_cons {n m : Nat} (h : n < m) (c : Char) (cs : List Char) :
    (crlf ((c :: cs).take (m - n))).length =
      (crlf [c]).length + (crlf (cs.take (m - (n + 1)))).length := by
  rw [take_sub_cons h, ← List.singleton_append, crlf_append, List.length_append]

/-- Template text goes on over line breaks. -/
theorem templateLength_crlf (n n' : Nat) (cs : List Char) :
    templateLength n' (crlf cs) =
      (templateLength n cs).map fun r => (r.1, n' + (crlf (cs.take (r.2 - n))).length) := by
  fun_induction templateLength n cs generalizing n' with
  | case1 => rfl
  | case2 => rfl
  | case3 n d cs ih =>
    have hskip : templateLength n' (crlf ('\\' :: d :: cs)) =
        templateLength (n' + (crlf ['\\']).length + (crlf [d]).length) (crlf cs) := by
      by_cases hd : d = '\n'
      · subst hd; rfl
      · rw [crlf_cons (by decide), crlf_cons hd, crlf_cons hd]; rfl
    rw [hskip, ih]
    refine Option.map_congr fun r hr => ?_
    have hlt := (templateLength_take hr).1
    rw [length_crlf_take_cons (by omega), length_crlf_take_cons (by omega), ← Nat.add_assoc,
      ← Nat.add_assoc]
  | case4 n cs =>
    rw [crlf_cons (by decide)]
    simp [templateLength, crlf_cons]
  | case5 n cs =>
    rw [crlf_cons (by decide), crlf_cons (by decide)]
    simp [templateLength, crlf_cons]
  | case6 n d cs hesc hquote hopen ih =>
    have hskip : templateLength n' (crlf (d :: cs)) =
        templateLength (n' + (crlf [d]).length) (crlf cs) := by
      by_cases hd : d = '\n'
      · subst hd; rfl
      · rw [crlf_cons hd, crlf_cons hd, templateLength]
        · rfl
        · exact hesc
        · exact hquote
        -- a brace after a dollar sign has no line break before it
        · intro tail hdollar hbrace
          obtain ⟨tail', rfl⟩ := exists_cons_of_crlf_eq (by decide) hbrace
          exact hopen tail' hdollar rfl
    rw [hskip, ih]
    refine Option.map_congr fun r hr => ?_
    have hlt := (templateLength_take hr).1
    rw [length_crlf_take_cons (by omega), ← Nat.add_assoc]

/-- A block comment goes on over line breaks. -/
theorem commentLength_crlf (n n' : Nat) (cs : List Char) :
    commentLength n' (crlf cs) =
      (commentLength n cs).map fun m => n' + (crlf (cs.take (m - n))).length := by
  fun_induction commentLength n cs generalizing n' with
  | case1 => rfl
  | case2 n cs =>
    rw [crlf_cons (by decide), crlf_cons (by decide)]
    simp [commentLength, crlf_cons]
  | case3 n d cs hclose ih =>
    have hskip : commentLength n' (crlf (d :: cs)) =
        commentLength (n' + (crlf [d]).length) (crlf cs) := by
      by_cases hd : d = '\n'
      · subst hd; rfl
      · rw [crlf_cons hd, crlf_cons hd, commentLength]
        · rfl
        · intro tail hstar hslash
          obtain ⟨tail', rfl⟩ := exists_cons_of_crlf_eq (by decide) hslash
          exact hclose tail' hstar rfl
    rw [hskip, ih]
    refine Option.map_congr fun m hm => ?_
    have hlt := (commentLength_take hm).1
    rw [length_crlf_take_cons (by omega), ← Nat.add_assoc]

end Lengths

/-! ## Lexemes -/

section Lexemes

variable {ctx : Context} {c : Char} {cs : List Char}

theorem EndsLine.startsGap_crlf {gap : List Char} (h : EndsLine gap) (hne : gap ≠ []) :
    StartsGap (crlf gap) := by
  obtain ⟨d, gap, rfl⟩ := List.ne_nil_iff_exists_cons.mp hne
  obtain rfl : d = '\n' := Option.some.inj (h.resolve_left hne)
  exact ⟨'\r', by decide, rfl⟩

theorem EndsLine.endsWord_crlf {gap : List Char} (h : EndsLine gap) : EndsWord (crlf gap) := by
  by_cases hne : gap = []
  · simp [hne, EndsWord]
  · exact (h.startsGap_crlf hne).endsWord

theorem EndsLine.endsPunct_crlf {gap : List Char} (h : EndsLine gap) : EndsPunct (crlf gap) := by
  by_cases hne : gap = []
  · simp [hne, EndsPunct]
  · exact (h.startsGap_crlf hne).endsPunct

/-- An identifier ends with its line. -/
theorem identLength_crlf (cs : List Char) :
    identLength (crlf cs) = identLength cs := by
  obtain ⟨word, gap, rfl, hcrlf, -, hgap⟩ := exists_crlf_split cs
  rw [hcrlf, Lexer.identLength_append hgap.endsWord_crlf, Lexer.identLength_append hgap.endsWord]

/-- A number ends with its line. -/
theorem numberLength_crlf (hex : Bool) (last : Char) (n : Nat) (cs : List Char) :
    numberLength hex last n (crlf cs) = numberLength hex last n cs := by
  obtain ⟨word, gap, rfl, hcrlf, -, hgap⟩ := exists_crlf_split cs
  rw [hcrlf, Lexer.numberLength_append hgap.endsWord_crlf, Lexer.numberLength_append hgap.endsWord]

/-- A punctuator ends with its line. -/
theorem punctLength_crlf (c : Char) (cs : List Char) :
    punctLength (c :: crlf cs) = punctLength (c :: cs) := by
  obtain ⟨word, gap, rfl, hcrlf, -, hgap⟩ := exists_crlf_split cs
  rw [hcrlf, Lexer.punctLength_append hgap.endsPunct_crlf, Lexer.punctLength_append hgap.endsPunct]

theorem newline_not_mem_take_of_le {word gap : List Char} {n : Nat} (hword : '\n' ∉ word)
    (hn : n ≤ word.length) : '\n' ∉ (word ++ gap).take n := by
  rw [List.take_append_of_le_length hn]
  exact fun h => hword (List.mem_of_mem_take h)

/-- Identifiers, numbers and punctuators stand on one line. -/
theorem LexemeAt.newline_not_mem {kind : TokenKind} {more : Nat}
    (h : LexemeAt ctx c cs ⟨some kind, more⟩) (hkind : kind ∈ [TokenKind.ident, .number, .punct]) :
    '\n' ∉ cs.take more := by
  obtain ⟨word, gap, rfl, -, hword, hgap⟩ := exists_crlf_split cs
  refine newline_not_mem_take_of_le hword ?_
  cases h with
  | str | regex => simp at hkind
  | template _ hn => rcases templateLength_kind hn with rfl | rfl <;> simp at hkind
  | number =>
    rw [Lexer.numberLength_append hgap.endsWord]
    exact (numberLength_le _ _ _ _).trans (Nat.zero_add _).le
  | ident =>
    rw [Lexer.identLength_append hgap.endsWord]
    exact identLength_le word
  | punct =>
    rw [Lexer.punctLength_append hgap.endsPunct]
    exact punctLength_le c word

theorem any_isDigit_crlf (cs : List Char) :
    (crlf cs).head?.any Char.isDigit = cs.head?.any Char.isDigit := by
  obtain ⟨word, gap, rfl, hcrlf, -, hgap⟩ := exists_crlf_split cs
  rw [hcrlf, hgap.endsWord_crlf.any_isDigit_append, hgap.endsWord.any_isDigit_append]

theorem startsPunct_crlf :
    StartsPunct ctx c (crlf cs) ↔ StartsPunct ctx c cs := by
  have hhead {d : Char} (hd : d ∈ ['/', '*']) : (crlf cs).head? = some d ↔ cs.head? = some d := by
    refine head?_crlf ?_ ?_ cs <;> rintro rfl <;> exact absurd hd (by decide)
  have hdigit := any_isDigit_crlf cs
  exact ⟨fun h => h.of_head (fun _ _ hd => (hhead hd).mpr) hdigit.trans,
    fun h => h.of_head (fun _ _ hd => (hhead hd).mp) hdigit.symm.trans⟩

theorem hexadecimal_crlf (c : Char) (cs : List Char) :
    (c = '0' && ((crlf cs).head? == some 'x' || (crlf cs).head? == some 'X')) =
      (c = '0' && (cs.head? == some 'x' || cs.head? == some 'X')) := by
  have hhead {d : Char} (hreturn : d ≠ '\r') (hnewline : d ≠ '\n') :
      ((crlf cs).head? == some d) = (cs.head? == some d) := by
    rw [Bool.eq_iff_iff, beq_iff_eq, beq_iff_eq, head?_crlf hreturn hnewline]
  rw [hhead (by decide) (by decide), hhead (by decide) (by decide)]

theorem length_crlf_take {n : Nat} (hn : n ≤ cs.length) (hnot : '\n' ∉ cs.take n) :
    (crlf (cs.take n)).length = n := by
  rw [crlf_of_not_mem hnot, List.length_take, Nat.min_eq_left hn]

/-- The flags of a regular expression stand on the line of its closing slash. -/
theorem newline_not_mem_take_add_identLength {n : Nat} (hnot : '\n' ∉ cs.take n) :
    '\n' ∉ cs.take (n + identLength (cs.drop n)) := by
  rw [List.take_add, List.mem_append, not_or]
  exact ⟨hnot, fun h => absurd (isIdentPart_of_mem_take h) (by decide)⟩

theorem drop_crlf {n : Nat} (hn : n ≤ cs.length) (hnot : '\n' ∉ cs.take n) :
    (crlf cs).drop n = crlf (cs.drop n) := by
  rw [crlf_of_not_mem_take hnot]
  exact List.drop_left' (by rw [List.length_take, Nat.min_eq_left hn])

/-- A lexeme but a line comment goes on over the same characters with carriage returns, unless it is
a string or regular expression over several lines. -/
theorem LexemeAt.to_crlf {kind : Option TokenKind} {more : Nat}
    (h : LexemeAt ctx c cs ⟨kind, more⟩) (hcomment : ¬ (c = '/' ∧ cs.head? = some '/'))
    (hline : kind = some .str ∨ kind = some .regex → '\n' ∉ cs.take more) :
    LexemeAt ctx c (crlf cs) ⟨kind, (crlf (cs.take more)).length⟩ := by
  have hword {k : TokenKind} (hkind : kind = some k) (hk : k ∈ [TokenKind.ident, .number, .punct]) :
      '\n' ∉ cs.take more := by
    subst hkind
    exact h.newline_not_mem hk
  have hhead {d : Char} (hreturn : d ≠ '\r') (hnewline : d ≠ '\n') :=
    head?_crlf hreturn hnewline cs
  have hle := h.le_length
  cases h with
  | blank hc => exact .blank hc
  | lineComment hc hd => exact absurd ⟨hc, hd⟩ hcomment
  | blockComment hc hd hn =>
    refine .blockComment hc ((hhead (by decide) (by decide)).mpr hd) ?_
    -- the star of the opening stays the first character after the slash
    obtain ⟨d, cs, rfl⟩ := List.ne_nil_iff_exists_cons.mp (show cs ≠ [] by rintro rfl; cases hd)
    obtain rfl : d = '*' := Option.some.inj hd
    rw [List.tail_cons] at hn
    have hlt := (commentLength_take hn).1
    have hlength := @length_crlf_take_cons 0 more (by omega) '*' cs
    rw [Nat.sub_zero, Nat.zero_add] at hlength
    rw [crlf_cons (by decide), List.tail_cons, commentLength_crlf 1 1, hn, Option.map_some, hlength]
    rfl
  | str hc hn =>
    -- on one line no carriage return is put in
    have hnot := hline (.inl rfl)
    rw [length_crlf_take hle hnot]
    refine .str hc ((stringLength_crlf ?_).mpr ⟨hn, hnot⟩)
    rcases hc with rfl | rfl <;> decide
  | template hc hn =>
    refine .template hc ?_
    rw [templateLength_crlf 0 0, hn, Option.map_some, Nat.zero_add, Nat.sub_zero]
  | @regex n hc hd hctx hn =>
    have hnot := hline (.inr rfl)
    have hbody : '\n' ∉ cs.take n := fun h => hnot (List.take_add ▸ List.mem_append_left _ h)
    rw [length_crlf_take hle hnot, ← identLength_crlf, ← drop_crlf (by omega) hbody]
    refine .regex hc ?_ hctx (regexLength_crlf.mpr ⟨hn, hbody⟩)
    rwa [ne_eq, ne_eq, hhead (by decide) (by decide), hhead (by decide) (by decide)]
  | number hc =>
    have hnot := hword rfl (by decide)
    rw [length_crlf_take hle hnot, ← hexadecimal_crlf, ← numberLength_crlf]
    exact .number (by rwa [any_isDigit_crlf])
  | ident hc =>
    have hnot := hword rfl (by decide)
    rw [length_crlf_take hle hnot, ← identLength_crlf]
    exact .ident hc
  | punct hc =>
    have hnot := hword rfl (by decide)
    rw [length_crlf_take hle hnot, ← punctLength_crlf]
    exact .punct (startsPunct_crlf.mpr hc)

/-- A lexeme of a text with carriage returns is one of the text without them, and no string or
regular expression over several lines. -/
theorem LexemeAt.of_crlf {kind : Option TokenKind} {more : Nat}
    (h : LexemeAt ctx c (crlf cs) ⟨kind, more⟩) :
    ∃ more, LexemeAt ctx c cs ⟨kind, more⟩ ∧
      (kind = some .str ∨ kind = some .regex → '\n' ∉ cs.take more) := by
  have hhead {d : Char} (hreturn : d ≠ '\r') (hnewline : d ≠ '\n') :=
    head?_crlf hreturn hnewline cs
  cases h with
  | blank hc => exact ⟨_, .blank hc, by simp⟩
  | lineComment hc hd =>
    exact ⟨_, .lineComment hc ((hhead (by decide) (by decide)).mp hd), by simp⟩
  | blockComment hc hd hn =>
    have hstar := (hhead (by decide) (by decide)).mp hd
    obtain ⟨d, cs, rfl⟩ := List.ne_nil_iff_exists_cons.mp
      (show cs ≠ [] by rintro rfl; cases hstar)
    obtain rfl : d = '*' := Option.some.inj hstar
    rw [crlf_cons (by decide), List.tail_cons, commentLength_crlf 1 1, Option.map_eq_some_iff] at hn
    obtain ⟨m, hm, -⟩ := hn
    exact ⟨_, .blockComment hc rfl hm, by simp⟩
  | str hc hn =>
    rw [stringLength_crlf (by rcases hc with rfl | rfl <;> decide)] at hn
    exact ⟨_, .str hc hn.1, fun _ => hn.2⟩
  | template hc hn =>
    rw [templateLength_crlf 0 0, Option.map_eq_some_iff] at hn
    obtain ⟨⟨kind, m⟩, hm, heq⟩ := hn
    obtain ⟨rfl, -⟩ := Prod.mk.inj heq
    refine ⟨_, .template hc hm, fun hkind => ?_⟩
    rcases templateLength_kind hm with rfl | rfl <;> simp at hkind
  | regex hc hd hctx hn =>
    rw [regexLength_crlf] at hn
    rw [ne_eq, ne_eq, hhead (by decide) (by decide), hhead (by decide) (by decide)] at hd
    exact ⟨_, .regex hc hd hctx hn.1, fun _ => newline_not_mem_take_add_identLength hn.2⟩
  | number hc =>
    rw [any_isDigit_crlf] at hc
    exact ⟨_, .number hc, by simp⟩
  | ident hc => exact ⟨_, .ident hc, by simp⟩
  | punct hc => exact ⟨_, .punct (startsPunct_crlf.mp hc), by simp⟩

end Lexemes

/-! ## Runs -/

theorem length_take_crlf_take (n : Nat) (cs : List Char) :
    (crlf cs).take (crlf (cs.take n)).length = crlf (cs.take n) ∧
      (crlf cs).drop (crlf (cs.take n)).length = crlf (cs.drop n) := by
  rw [crlf_take_append_drop n cs]
  exact ⟨List.take_left, List.drop_left⟩

/-- A line goes on over the carriage return at its end. -/
theorem exists_line_crlf (cs : List Char) :
    ∃ last, (last = [] ∨ last = ['\r']) ∧
      (crlf cs).take (lineLength (crlf cs)) = crlf (cs.take (lineLength cs)) ++ last ∧
      crlf (cs.drop (lineLength cs)) = last ++ (crlf cs).drop (lineLength (crlf cs)) := by
  obtain ⟨word, gap, rfl, hcrlf, hword, hgap⟩ := exists_crlf_split cs
  rw [hcrlf, lineLength_append_of_endsLine hword hgap, List.take_left, List.drop_left,
    crlf_of_not_mem hword]
  rcases hgap with rfl | hhead
  · rw [crlf_nil, lineLength_append_of_endsLine hword (.inl rfl), List.take_left, List.drop_left]
    exact ⟨[], .inl rfl, (List.append_nil word).symm, rfl⟩
  · obtain ⟨d, gap, rfl⟩ := List.ne_nil_iff_exists_cons.mp
      (show gap ≠ [] by rintro rfl; cases hhead)
    obtain rfl : d = '\n' := Option.some.inj hhead
    have hsplit : word ++ crlf ('\n' :: gap) = (word ++ ['\r']) ++ '\n' :: crlf gap := by simp
    have hreturn : '\n' ∉ word ++ ['\r'] := by simp [hword]
    rw [hsplit, lineLength_append_of_endsLine hreturn (.inr rfl), List.take_left, List.drop_left]
    exact ⟨['\r'], .inr rfl, rfl, rfl⟩

/-- A blank is read without a token. -/
theorem Scans.of_blank {ctx : Context} {offset : Nat} {c : Char} {cs : List Char} {ts : List Token}
    (h : Scans ctx offset (c :: cs) ts) (hc : isBlank c = true) :
    Scans ctx (offset + c.utf8Size) cs ts := by
  cases h with
  | gap hl hrest =>
    cases hl.unique (.blank hc)
    exact hrest
  | token hl => cases hl.unique (.blank hc)

/-- The token is no string and no regular expression over several lines. -/
def OnOneLine (t : Token) : Prop :=
  t.kind = .str ∨ t.kind = .regex → '\n' ∉ t.text.toList

instance (t : Token) : Decidable (OnOneLine t) :=
  inferInstanceAs (Decidable (t.kind = .str ∨ t.kind = .regex → '\n' ∉ t.text.toList))

/-- What becomes of a token of a source with a carriage return before every newline. -/
def tokenCrlf (src : List Char) (t : Token) : Token :=
  ⟨t.kind, utf8Width (crlf (takeBytes t.start src)), String.ofList (crlf t.text.toList)⟩

section Runs

variable {ctx ctx' : Context} {cs : List Char} {ts us : List Token}

/-- What follows a line is read alike after the carriage return at its end. -/
theorem scans_line_crlf {offset : Nat} {cs : List Char} :
    Scans ctx (offset + utf8Width ((crlf cs).take (lineLength (crlf cs))))
        ((crlf cs).drop (lineLength (crlf cs))) ts ↔
      Scans ctx (offset + utf8Width (crlf (cs.take (lineLength cs))))
        (crlf (cs.drop (lineLength cs))) ts := by
  obtain ⟨last, hlast, htake, hdrop⟩ := exists_line_crlf cs
  rw [htake, hdrop, utf8Width_append, ← Nat.add_assoc]
  rcases hlast with rfl | rfl
  · rfl
  · exact ⟨fun h => .gap (.blank rfl) h, fun h => h.of_blank rfl⟩

/-- A token that comes of a lexeme and the one with carriage returns keep contexts alike. -/
theorem Alike.push_crlf (halike : Alike ctx ctx') {c : Char} {kind : TokenKind} {more : Nat}
    (hl : LexemeAt ctx c cs ⟨some kind, more⟩)
    (hline : kind = .str ∨ kind = .regex → '\n' ∉ cs.take more) (start start' : Nat) :
    Alike (ctx.push ⟨kind, start, String.ofList (c :: cs.take more)⟩)
      (ctx'.push ⟨kind, start', String.ofList (c :: crlf (cs.take more))⟩) := by
  refine halike.push_of_readsAs ⟨rfl, fun htemplate hhead => ?_⟩ ?_
  · have hnot : '\n' ∉ cs.take more := by
      cases kind with
      | str => exact hline (.inl rfl)
      | regex => exact hline (.inr rfl)
      | template => exact absurd rfl htemplate
      | templateHead => exact absurd rfl hhead
      | ident | number | punct => exact hl.newline_not_mem (by decide)
    rw [crlf_of_not_mem hnot]
  · rw [String.toList_ofList, String.toList_ofList, List.head?_cons, List.head?_cons]

theorem Scans.to_crlf {offset : Nat} (h : Scans ctx offset cs ts) (halike : Alike ctx ctx')
    (pre : List Char) (hoffset : offset = utf8Width pre) (hline : ∀ t ∈ ts, OnOneLine t) :
    Scans ctx' (utf8Width (crlf pre)) (crlf cs) (ts.map (tokenCrlf (pre ++ cs))) := by
  induction h generalizing ctx' pre with
  | done => exact .done
  | @gap ctx offset c cs more ts hl hrest ih =>
    have hnext := ih halike (pre ++ c :: cs.take more) (by rw [hoffset, utf8Width_append]) hline
    rw [append_take_append_drop, crlf_append, utf8Width_append] at hnext
    have hl' := hl.of_sameView halike.view fun _ => halike.closesSubstitution_eq
    by_cases hc : c = '\n'
    -- a line break is two blanks
    · subst hc
      cases hl.unique (.blank rfl)
      exact .gap (.blank rfl) (.gap (.blank rfl) hnext)
    rw [crlf_cons hc] at hnext ⊢
    by_cases hcomment : c = '/' ∧ cs.head? = some '/'
    -- a line comment takes the carriage return with it
    · cases hl.unique (.lineComment hcomment.1 hcomment.2)
      have hhead := (head?_crlf (by decide) (by decide) cs).mpr hcomment.2
      rw [utf8Width_cons, ← Nat.add_assoc] at hnext
      refine .gap (.lineComment hcomment.1 hhead) ?_
      rw [utf8Width_cons, ← Nat.add_assoc]
      exact scans_line_crlf.mpr hnext
    · obtain ⟨htake, hdrop⟩ := length_take_crlf_take more cs
      refine .gap (hl'.to_crlf hcomment (by simp)) ?_
      rwa [htake, hdrop]
  | @token ctx offset c cs kind more t ts hl ht hrest ih =>
    subst ht hoffset
    have hc : c ≠ '\n' := by
      rintro rfl
      cases hl.unique (.blank rfl)
    have hcomment : ¬ (c = '/' ∧ cs.head? = some '/') := fun ⟨hslash, hhead⟩ => by
      cases hl.unique (.lineComment hslash hhead)
    have hnot : kind = .str ∨ kind = .regex → '\n' ∉ cs.take more := fun hkind => by
      have := hline _ List.mem_cons_self hkind
      rw [String.toList_ofList, List.mem_cons, not_or] at this
      exact this.2
    have hnext := ih (halike.push_crlf hl hnot _ (utf8Width (crlf pre)))
      (pre ++ c :: cs.take more) (by rw [utf8Width_append])
      fun t ht => hline t (List.mem_cons_of_mem _ ht)
    obtain ⟨htake, hdrop⟩ := length_take_crlf_take more cs
    have hl' := hl.of_sameView halike.view fun _ => halike.closesSubstitution_eq
    rw [append_take_append_drop, crlf_append, utf8Width_append, crlf_cons hc] at hnext
    have htoken :
        tokenCrlf (pre ++ c :: cs) ⟨kind, utf8Width pre, String.ofList (c :: cs.take more)⟩ =
          ⟨kind, utf8Width (crlf pre), String.ofList (c :: crlf (cs.take more))⟩ := by
      rw [tokenCrlf, takeBytes_append, String.toList_ofList, crlf_cons hc]
    rw [crlf_cons hc, List.map_cons, htoken]
    refine .token (hl'.to_crlf hcomment (by simpa using hnot)) (by rw [htake]) ?_
    rwa [htake, hdrop]

/-- A run over a text with carriage returns is one over the text without them, where no string or
regular expression goes over several lines. -/
theorem Scans.of_crlf {offset' : Nat} (h : Scans ctx' offset' (crlf cs) us)
    (halike : Alike ctx ctx') (offset : Nat) :
    ∃ ts, Scans ctx offset cs ts ∧ ∀ t ∈ ts, OnOneLine t := by
  -- on the length of the text without carriage returns, which the run does not show
  induction hlength : cs.length using Nat.strong_induction_on
    generalizing ctx ctx' cs us offset offset' with
  | _ length ih =>
    subst hlength
    cases cs with
    | nil => exact ⟨[], .done, by simp⟩
    | cons c cs =>
      have hlt (more : Nat) : (cs.drop more).length < (c :: cs).length := by
        rw [List.length_drop, List.length_cons]
        omega
      by_cases hc : c = '\n'
      · subst hc
        have hrest := (h.of_blank rfl).of_blank rfl
        obtain ⟨ts, hts, hline⟩ := ih _ (hlt 0) hrest halike (offset + '\n'.utf8Size) rfl
        exact ⟨ts, .gap (.blank rfl) hts, hline⟩
      rw [crlf_cons hc] at h
      by_cases hcomment : c = '/' ∧ cs.head? = some '/'
      · have hhead := (head?_crlf (by decide) (by decide) cs).mpr hcomment.2
        cases h with
        | token hl => cases hl.unique (.lineComment hcomment.1 hhead)
        | gap hl hrest =>
          cases hl.unique (.lineComment hcomment.1 hhead)
          rw [utf8Width_cons, ← Nat.add_assoc] at hrest
          obtain ⟨ts, hts, hline⟩ := ih _ (hlt _) (scans_line_crlf.mp hrest) halike _ rfl
          exact ⟨ts, .gap (.lineComment hcomment.1 hcomment.2) hts, hline⟩
      cases h with
      -- the lexeme comes from one of the text, which goes back to it
      | gap hl hrest =>
        have hl' := hl.of_sameView halike.symm.view fun _ => halike.symm.closesSubstitution_eq
        obtain ⟨more, hread, -⟩ := hl'.of_crlf
        cases hl'.unique (hread.to_crlf hcomment (by simp))
        rw [(length_take_crlf_take more cs).2] at hrest
        obtain ⟨ts, hts, hline⟩ := ih _ (hlt more) hrest halike _ rfl
        exact ⟨ts, .gap hread hts, hline⟩
      | @token _ _ _ _ kind _ _ _ hl ht hrest =>
        have hl' := hl.of_sameView halike.symm.view fun _ => halike.symm.closesSubstitution_eq
        obtain ⟨more, hread, hnot⟩ := hl'.of_crlf
        cases hl'.unique (hread.to_crlf hcomment hnot)
        rw [(length_take_crlf_take more cs).1] at ht
        rw [(length_take_crlf_take more cs).2, ht] at hrest
        rw [Option.some.injEq, Option.some.injEq] at hnot
        obtain ⟨ts, hts, hline⟩ := ih _ (hlt more) hrest
          (halike.push_crlf hread hnot offset offset') _ rfl
        refine ⟨_, .token hread rfl hts, ?_⟩
        rintro t (_ | ⟨_, ht⟩)
        · intro hkind
          rw [String.toList_ofList, List.mem_cons, not_or]
          exact ⟨Ne.symm hc, hnot hkind⟩
        · exact hline t ht

end Runs

/-! ## Sources -/

theorem isPrefixOf_hashbang_crlf (cs : List Char) :
    ['#', '!'].isPrefixOf (crlf cs) = ['#', '!'].isPrefixOf cs := by
  obtain ⟨word, gap, rfl, hcrlf, -, hgap⟩ := exists_crlf_split cs
  rw [hcrlf]
  by_cases hne : gap = []
  · rw [hne, crlf_nil]
  · obtain ⟨d, gap, rfl⟩ := List.ne_nil_iff_exists_cons.mp hne
    obtain rfl : d = '\n' := Option.some.inj (hgap.resolve_left hne)
    rw [isPrefixOf_append_of_head (by simp), isPrefixOf_append_of_head (by simp)]

/-- After its hashbang line a source is read as before, from where the line ends. -/
theorem scans_crlf_iff {cs : List Char} {ts : List Token} :
    Scans {} (utf8Width ((crlf cs).take (hashbangLength (crlf cs))))
        ((crlf cs).drop (hashbangLength (crlf cs))) ts ↔
      Scans {} (utf8Width (crlf (cs.take (hashbangLength cs))))
        (crlf (cs.drop (hashbangLength cs))) ts := by
  rw [hashbangLength_eq, hashbangLength_eq, isPrefixOf_hashbang_crlf]
  split
  next =>
    have hline := @scans_line_crlf {} ts 0 cs
    rwa [Nat.zero_add, Nat.zero_add] at hline
  next => rfl

/-- The lexer accepts a source with a carriage return before every newline exactly if it accepts the
source without them and no string or regular expression goes over several lines. Then the tokens are
the same with carriage returns before their newlines. -/
theorem tokenize_crlf {src : String} {us : List Token} :
    tokenize (String.ofList (crlf src.toList)) = .ok us ↔
      ∃ ts, tokenize src = .ok ts ∧ (∀ t ∈ ts, OnOneLine t) ∧
        us = ts.map (tokenCrlf src.toList) := by
  rw [tokenize_eq_ok_iff, String.toList_ofList, scans_crlf_iff]
  have hsplit := List.take_append_drop (hashbangLength src.toList) src.toList
  constructor
  · intro h
    obtain ⟨ts, hts, hline⟩ := h.of_crlf (.refl {})
      (utf8Width (src.toList.take (hashbangLength src.toList)))
    refine ⟨ts, tokenize_eq_ok_iff.mpr hts, hline, ?_⟩
    have hmap := hts.to_crlf (.refl {}) _ rfl hline
    rw [hsplit] at hmap
    exact h.unique hmap
  · rintro ⟨ts, hts, hline, rfl⟩
    have hmap := (tokenize_eq_ok_iff.mp hts).to_crlf (.refl {}) _ rfl hline
    rwa [hsplit] at hmap

end Lexer

end EdgeBundle
