import EdgeBundle.Proofs.Token.Single
import EdgeBundle.Proofs.Token.Spelling
import Mathlib.Data.List.Find

/-!
# Lexemes before other text

What is closed by a character of its own is read without looking at what follows. All else goes on
as long as it can: comments on a line, words, numbers and punctuators. So a lexeme that stops in a
text is the same before other text as soon as these stop there alike. That is so before any gap that
starts with a blank, if it was so before a gap; a comment right after a division sign would take the
sign with it.

## Main definitions

* `StartsGap` and `StartsBlank`: text that starts with a blank or a comment, or with a blank.

## Main statements

* `stringLength_take`, `templateLength_take`, `regexLength_take`, `commentLength_take`: what is
  closed is read without looking at what follows.
* `LexemeAt.exchange_rest`: a lexeme before other text.
* `LexemeAt.exchange`: a lexeme before another gap.
-/

namespace EdgeBundle.Lexer

/-! ## Literals before other text -/

theorem take_sub_cons {n m : Nat} (h : n < m) (c : Char) (cs : List Char) :
    (c :: cs).take (m - n) = c :: cs.take (m - (n + 1)) := by
  rw [← List.take_succ_cons]
  congr 1
  omega

/-- A string is read up to its closing quote, whatever follows. -/
theorem stringLength_take {quote : Char} {n m : Nat} {cs : List Char}
    (h : stringLength quote n cs = some m) :
    n < m ∧ ∀ rest, stringLength quote n (cs.take (m - n) ++ rest) = some m := by
  fun_induction stringLength quote n cs with
  | case1 | case2 | case4 => cases h
  -- an escape
  | case3 n d cs ih =>
    obtain ⟨hlt, hread⟩ := ih h
    refine ⟨by omega, fun rest => ?_⟩
    rw [take_sub_cons (by omega), take_sub_cons (by omega)]
    exact hread rest
  -- the closing quote
  | case5 n cs hesc hline =>
    cases h
    refine ⟨Nat.lt_succ_self n, fun rest => ?_⟩
    rw [take_sub_cons (Nat.lt_succ_self n), List.cons_append, stringLength, if_neg hline,
      if_pos rfl]
    exact fun hd => absurd hd hesc
  | case6 n d cs hesc hline hquote ih =>
    obtain ⟨hlt, hread⟩ := ih h
    refine ⟨by omega, fun rest => ?_⟩
    rw [take_sub_cons (by omega), List.cons_append, stringLength, if_neg hline, if_neg hquote,
      hread]
    exact fun hd => absurd hd hesc

/-- Template text is read up to its end, whatever follows. -/
theorem templateLength_take {n m : Nat} {cs : List Char} {kind : TokenKind}
    (h : templateLength n cs = some (kind, m)) :
    n < m ∧ ∀ rest, templateLength n (cs.take (m - n) ++ rest) = some (kind, m) := by
  fun_induction templateLength n cs with
  | case1 | case2 => cases h
  | case3 n d cs ih =>
    obtain ⟨hlt, hread⟩ := ih h
    refine ⟨by omega, fun rest => ?_⟩
    rw [take_sub_cons (by omega), take_sub_cons (by omega)]
    exact hread rest
  -- the closing backtick
  | case4 n cs =>
    cases h
    refine ⟨Nat.lt_succ_self n, fun rest => ?_⟩
    rw [take_sub_cons (Nat.lt_succ_self n)]
    rfl
  -- the start of a substitution
  | case5 n cs =>
    cases h
    refine ⟨by omega, fun rest => ?_⟩
    rw [take_sub_cons (by omega), take_sub_cons (by omega)]
    rfl
  | case6 n d cs hesc hquote hopen ih =>
    obtain ⟨hlt, hread⟩ := ih h
    refine ⟨by omega, fun rest => ?_⟩
    rw [take_sub_cons (by omega), List.cons_append, templateLength, hread]
    · exact hesc
    · exact hquote
    -- the character after a dollar sign is among those that are read
    · intro tail hdollar hbrace
      cases cs with
      | nil => cases h
      | cons e cs =>
        rw [take_sub_cons hlt, List.cons_append] at hbrace
        obtain ⟨rfl, -⟩ := List.cons.inj hbrace
        exact hopen cs hdollar rfl

/-- The body of a regular expression is read up to its closing slash, whatever follows. -/
theorem regexLength_take {inClass : Bool} {n m : Nat} {cs : List Char}
    (h : regexLength inClass n cs = some m) :
    n < m ∧ ∀ rest, regexLength inClass n (cs.take (m - n) ++ rest) = some m := by
  fun_induction regexLength inClass n cs with
  | case1 | case2 | case4 => cases h
  | case3 inClass n d cs ih =>
    obtain ⟨hlt, hread⟩ := ih h
    refine ⟨by omega, fun rest => ?_⟩
    rw [take_sub_cons (by omega), take_sub_cons (by omega)]
    exact hread rest
  -- the start and the end of a class
  | case5 inClass n cs hesc hline ih | case6 inClass n cs hesc hline _ ih =>
    obtain ⟨hlt, hread⟩ := ih h
    refine ⟨by omega, fun rest => ?_⟩
    rw [take_sub_cons (by omega), List.cons_append]
    exact hread rest
  -- the closing slash
  | case7 inClass n d cs hesc hline hopen hclose hslash =>
    cases h
    refine ⟨Nat.lt_succ_self n, fun rest => ?_⟩
    rw [take_sub_cons (Nat.lt_succ_self n), List.cons_append, regexLength, if_neg hline,
      if_neg hopen, if_neg hclose, if_pos hslash]
    exact fun hd => absurd hd hesc
  | case8 inClass n d cs hesc hline hopen hclose hslash ih =>
    obtain ⟨hlt, hread⟩ := ih h
    refine ⟨by omega, fun rest => ?_⟩
    rw [take_sub_cons (by omega), List.cons_append, regexLength, if_neg hline, if_neg hopen,
      if_neg hclose, if_neg hslash, hread]
    exact fun hd => absurd hd hesc

/-- A block comment is read up to its end, whatever follows. -/
theorem commentLength_take {n m : Nat} {cs : List Char} (h : commentLength n cs = some m) :
    n < m ∧ ∀ rest, commentLength n (cs.take (m - n) ++ rest) = some m := by
  fun_induction commentLength n cs with
  | case1 => cases h
  | case2 n cs =>
    cases h
    refine ⟨by omega, fun rest => ?_⟩
    rw [take_sub_cons (by omega), take_sub_cons (by omega)]
    rfl
  | case3 n d cs hclose ih =>
    obtain ⟨hlt, hread⟩ := ih h
    refine ⟨by omega, fun rest => ?_⟩
    rw [take_sub_cons (by omega), List.cons_append, commentLength, hread]
    -- the character after an asterisk is among those that are read
    intro tail hstar hslash
    cases cs with
    | nil => cases h
    | cons e cs =>
      rw [take_sub_cons hlt, List.cons_append] at hslash
      obtain ⟨rfl, -⟩ := List.cons.inj hslash
      exact hclose cs hstar rfl

/-- What is read from the first characters alone is read with any text after them. -/
theorem eq_of_forall_take {α : Type} {f : List Char → α} {result : α} {cs rest : List Char}
    {count : Nat} (h : ∀ rest', f ((cs ++ rest).take count ++ rest') = result)
    (hcount : count ≤ cs.length) (rest' : List Char) : f (cs ++ rest') = result := by
  rw [← h (cs.drop count ++ rest'), List.take_append_of_le_length hcount, ← List.append_assoc,
    List.take_append_drop]

/-! ## Words and punctuators before a gap -/

/-- A blank or the first slash of a comment comes next. -/
def StartsGap (rest : List Char) : Prop :=
  ∃ d ∈ '/' :: blanks, rest.head? = some d

/-- A blank comes next. -/
def StartsBlank (rest : List Char) : Prop :=
  ∃ d ∈ blanks, rest.head? = some d

theorem StartsBlank.startsGap {rest : List Char} (h : StartsBlank rest) : StartsGap rest := by
  obtain ⟨d, hd, hhead⟩ := h
  exact ⟨d, List.mem_cons_of_mem _ hd, hhead⟩

theorem StartsGap.endsWord {rest : List Char} (h : StartsGap rest) : EndsWord rest := by
  have hgap : ('/' :: blanks).all
      fun d => isIdentPart d = false ∧ d ≠ '.' ∧ d ≠ '+' ∧ d ≠ '-' := by decide
  obtain ⟨d, hd, hhead⟩ := h
  intro e he
  rw [hhead] at he
  cases he
  exact of_decide_eq_true (List.all_eq_true.mp hgap d hd)

/-- A text that does not go on with the first character of another is before it if it was without
it. -/
theorem isPrefixOf_append_of_head {text cs rest : List Char} (h : ∀ d ∈ rest.head?, d ∉ text) :
    text.isPrefixOf (cs ++ rest) = text.isPrefixOf cs := by
  induction text generalizing cs with
  | nil => cases cs <;> rfl
  | cons c text ih =>
    have htext : ∀ d ∈ rest.head?, d ∉ text := fun d hd hmem => h d hd (List.mem_cons_of_mem _ hmem)
    cases cs with
    | cons d cs => rw [List.cons_append, List.isPrefixOf, List.isPrefixOf, ih htext]
    | nil =>
      cases rest with
      | nil => rfl
      | cons e rest =>
        have hne : c ≠ e := by
          rintro rfl
          exact h c rfl List.mem_cons_self
        simp [List.isPrefixOf, hne]

/-- A text that no gap starts inside of is before a gap if it was without it. -/
theorem isPrefixOf_append_of_startsGap {text cs rest : List Char}
    (htext : ∀ d ∈ text, d ∉ '/' :: blanks) (hrest : StartsGap rest) :
    text.isPrefixOf (cs ++ rest) = text.isPrefixOf cs := by
  obtain ⟨d, hd, hhead⟩ := hrest
  refine isPrefixOf_append_of_head fun e he hmem => ?_
  rw [hhead] at he
  cases he
  exact htext d hmem hd

/-- No punctuator goes on with the first character of the text. -/
def EndsPunct (rest : List Char) : Prop :=
  ∀ d ∈ rest.head?, d.isDigit = false ∧ ∀ p ∈ longPuncts, d ∉ p.toList.tail

/-- No gap starts inside a punctuator. -/
theorem longPuncts_tail {p : String} (hp : p ∈ longPuncts) :
    ∀ d ∈ p.toList.tail, d ∉ '/' :: blanks := by
  have hall : longPuncts.all (·.toList.tail.all (· ∉ '/' :: blanks)) := by decide +kernel
  exact fun d hd => of_decide_eq_true (List.all_eq_true.mp (List.all_eq_true.mp hall p hp) d hd)

theorem StartsGap.endsPunct {rest : List Char} (h : StartsGap rest) : EndsPunct rest := by
  obtain ⟨d, hd, hhead⟩ := id h
  intro e he
  refine ⟨?_, fun p hp hmem => ?_⟩
  · have hpart := (h.endsWord e he).1
    rw [isIdentPart, Bool.or_eq_false_iff] at hpart
    exact hpart.2
  · rw [hhead] at he
    cases he
    exact longPuncts_tail hp d hmem hd

/-- No punctuator goes on into a text before which punctuators end. -/
theorem longPunct?_append {c : Char} {cs rest : List Char} (hrest : EndsPunct rest) :
    longPunct? (c :: (cs ++ rest)) = longPunct? (c :: cs) := by
  have hstarts : ∀ p ∈ longPuncts,
      p.toList.isPrefixOf (c :: (cs ++ rest)) = p.toList.isPrefixOf (c :: cs) := by
    intro p hp
    have htail : ∀ d ∈ rest.head?, d ∉ p.toList.tail := fun d hd => (hrest d hd).2 p hp
    cases htext : p.toList with
    | nil => rfl
    | cons d text =>
      rw [htext, List.tail_cons] at htail
      rw [List.isPrefixOf, List.isPrefixOf, isPrefixOf_append_of_head htail]
  rw [longPunct?, longPunct?, List.find?_congr hstarts]
  cases hfind : longPuncts.find? fun p => p.toList.isPrefixOf (c :: cs) with
  | none => rfl
  | some p =>
    have hfound := List.find?_some hfind
    -- a question mark and point that are found were there without the rest
    have hpoint : p = "?." → ((c :: (cs ++ rest)).drop 2).head?.any Char.isDigit =
        ((c :: cs).drop 2).head?.any Char.isDigit := by
      rintro rfl
      cases cs with
      | nil => simp [List.isPrefixOf] at hfound
      | cons d cs =>
        cases cs with
        | cons => rfl
        | nil =>
          cases rest with
          | nil => rfl
          | cons e rest => exact (hrest e rfl).1
    by_cases hp : p = "?."
    · rw [Option.filter_some, Option.filter_some, hpoint hp]
    · simp [Option.filter_some, hp]

theorem punctLength_append {c : Char} {cs rest : List Char} (hrest : EndsPunct rest) :
    punctLength (c :: (cs ++ rest)) = punctLength (c :: cs) := by
  rw [punctLength, longPunct?_append hrest, punctLength]

/-! ## Lexemes before other text -/

section Exchange

variable {ctx : Context} {c : Char} {cs cs' rest rest' : List Char} {kind : Option TokenKind}
  {more : Nat}

/-- A line that ends in a text ends there whatever follows the text. -/
theorem lineLength_append (h : lineLength (cs ++ rest) < cs.length)
    (rest' : List Char) : lineLength (cs ++ rest') = lineLength (cs ++ rest) := by
  have hne : (cs.takeWhile (· != '\n')).length ≠ cs.length := by
    intro hall
    rw [lineLength, List.takeWhile_append, if_pos hall, List.length_append] at h
    omega
  rw [lineLength, lineLength, List.takeWhile_append, List.takeWhile_append, if_neg hne, if_neg hne]

theorem le_numberLength (hex : Bool) (last : Char) (n : Nat) (cs : List Char) :
    n ≤ numberLength hex last n cs := by
  fun_induction numberLength hex last n cs with
  | case1 => exact Nat.le_refl _
  | case2 _ _ _ _ _ _ ih => exact Nat.le_of_succ_le ih
  | case3 => exact Nat.le_refl _

/-- A number does not stop right before a letter or digit. -/
theorem isAlphanum_of_numberLength_le {hex : Bool} {last : Char} {n : Nat}
    (h : numberLength hex last n cs ≤ n) : ∀ d ∈ cs.head?, d.isAlphanum = false := by
  cases cs with
  | nil => simp
  | cons d cs =>
    intro e he
    cases he
    rw [numberLength] at h
    split at h
    next =>
      have := le_numberLength hex d (n + 1) cs
      omega
    next hd =>
      simp only [Bool.or_eq_true, not_or] at hd
      exact Bool.eq_false_iff.mpr hd.1.1.1

/-- So neither an `x` nor a digit comes next. -/
theorem head?_of_numberLength_le {hex : Bool} {last : Char} {n : Nat}
    (h : numberLength hex last n cs ≤ n) :
    (cs.head? == some 'x' || cs.head? == some 'X') = false ∧
      cs.head?.any Char.isDigit = false := by
  have hnext := isAlphanum_of_numberLength_le h
  have hne {d : Char} (hd : d.isAlphanum = true) : (cs.head? == some d) = false := by
    rw [beq_eq_false_iff_ne]
    intro hhead
    rw [hnext d hhead] at hd
    cases hd
  refine ⟨Bool.or_eq_false_iff.mpr ⟨hne (by decide), hne (by decide)⟩, ?_⟩
  cases cs with
  | nil => rfl
  | cons d cs => exact (Bool.or_eq_false_iff.mp (hnext d rfl)).2

/-- A regular expression that is closed in a text has its closing slash there. -/
theorem exists_append_of_regexLength {n : Nat} (h : regexLength false 0 (cs ++ rest) = some n)
    (hle : n ≤ cs.length) : ∃ body, cs = body ++ '/' :: cs.drop n := by
  obtain ⟨body, tail, hcs, rfl, -⟩ := regexLength_eq_some h
  have htake := take_append_cons body '/' tail 0
  rw [← hcs, Nat.add_zero, List.take_append_of_le_length hle, List.take_zero] at htake
  refine ⟨body, ?_⟩
  calc cs = cs.take (0 + (body.length + 1)) ++ cs.drop (0 + (body.length + 1)) :=
        (List.take_append_drop _ cs).symm
    _ = body ++ '/' :: cs.drop (0 + (body.length + 1)) := by
        rw [htake, List.append_assoc, List.singleton_append]

/-- That nothing but a punctuator starts hangs on the next character alone. -/
theorem StartsPunct.of_head (h : StartsPunct ctx c cs)
    (hslash : c = '/' → ∀ d ∈ ['/', '*'], cs'.head? = some d → cs.head? = some d)
    (hdigit : cs'.head?.any Char.isDigit = true → cs.head?.any Char.isDigit = true) :
    StartsPunct ctx c cs' where
  not_blank := h.not_blank
  not_quote := h.not_quote
  not_closing := h.not_closing
  divides hc := by
    obtain ⟨hline, hblock, hdivides⟩ := h.divides hc
    exact ⟨mt (hslash hc '/' (by simp)) hline, mt (hslash hc '*' (by simp)) hblock, hdivides⟩
  not_digit := by
    rintro (hd | ⟨hc, hd⟩)
    · exact h.not_digit (.inl hd)
    · exact h.not_digit (.inr ⟨hc, hdigit hd⟩)
  not_ident := h.not_ident

/-- A lexeme that stops in a text is the same before other text, if all that goes on as long as it
can stops there alike. What is closed is read without looking at what follows. -/
theorem LexemeAt.exchange_rest (h : LexemeAt ctx c (cs ++ rest) ⟨kind, more⟩)
    (hmore : more ≤ cs.length)
    (hline : kind = none → lineLength (cs ++ rest) = more → lineLength (cs ++ rest') = more)
    (hword : ∀ body d word, c :: cs = body ++ d :: word → d ≠ '\n' →
      identLength (word ++ rest) ≤ word.length →
        identLength (word ++ rest') = identLength (word ++ rest))
    (hnumber : ∀ hex, numberLength hex c 0 (cs ++ rest) ≤ cs.length →
      numberLength hex c 0 (cs ++ rest') = numberLength hex c 0 (cs ++ rest))
    (hpunct : StartsPunct ctx c (cs ++ rest) → punctLength (c :: (cs ++ rest)) ≤ cs.length →
      StartsPunct ctx c (cs ++ rest') ∧
        punctLength (c :: (cs ++ rest')) = punctLength (c :: (cs ++ rest))) :
    LexemeAt ctx c (cs ++ rest') ⟨kind, more⟩ := by
  cases h with
  | blank hc => exact .blank hc
  | lineComment hc hd =>
    rw [← hline rfl rfl]
    refine .lineComment hc ?_
    cases cs with
    | nil =>
      -- the second slash is part of the comment
      obtain ⟨tail, rfl⟩ := List.head?_eq_some_iff.mp hd
      simp [lineLength_cons] at hmore
    | cons => exact hd
  | blockComment hc hd hn =>
    obtain ⟨hlt, htake⟩ := commentLength_take hn
    cases cs with
    | nil => rw [List.length_nil] at hmore; omega
    | cons d cs =>
      rw [List.cons_append, List.tail_cons] at htake
      rw [List.length_cons] at hmore
      exact .blockComment hc hd (eq_of_forall_take htake (by omega) rest')
  | str hc hn => exact .str hc (eq_of_forall_take (stringLength_take hn).2 hmore rest')
  | template hc hn => exact .template hc (eq_of_forall_take (templateLength_take hn).2 hmore rest')
  | @regex n hc hd hctx hn =>
    obtain ⟨hlt, htake⟩ := regexLength_take hn
    have hle : n ≤ cs.length := by omega
    rw [List.drop_append_of_le_length hle] at hmore ⊢
    obtain ⟨body, hbody⟩ := exists_append_of_regexLength hn hle
    have hflags := hword (c :: body) '/' (cs.drop n) (congrArg (c :: ·) hbody) (by decide)
      (by rw [List.length_drop]; omega)
    rw [← hflags, ← List.drop_append_of_le_length hle]
    refine .regex hc ?_ hctx (eq_of_forall_take htake hle rest')
    cases cs with
    | nil => rw [List.length_nil] at hle; omega
    | cons => exact hd
  | number hc =>
    have hlength := hnumber _ hmore
    cases cs with
    | cons => exact hlength ▸ .number hc
    | nil =>
      simp only [List.nil_append] at hmore hlength hc ⊢
      obtain ⟨hx, hdigit⟩ := head?_of_numberLength_le hmore
      obtain ⟨hx', hdigit'⟩ := head?_of_numberLength_le (hlength.le.trans hmore)
      rw [← hlength, hx, ← hx']
      exact .number (by rwa [hdigit', ← hdigit])
  | ident hc =>
    have hne : c ≠ '\n' := by
      rintro rfl
      exact absurd hc (by decide)
    rw [← hword [] c cs rfl hne hmore]
    exact .ident hc
  | punct hc =>
    obtain ⟨hstarts, hlength⟩ := hpunct hc hmore
    rw [← hlength]
    exact .punct hstarts

/-! ## Lexemes before another gap -/

/-- What starts nothing but a punctuator before a gap does so before another gap. -/
theorem StartsPunct.exchange (h : StartsPunct ctx c (cs ++ rest)) (hrest : StartsGap rest)
    (hrest' : StartsBlank rest') : StartsPunct ctx c (cs ++ rest') := by
  refine h.of_head (fun _ d hd hhead => ?_) fun hdigit => ?_
  · cases cs with
    | cons => exact hhead
    | nil =>
      obtain ⟨e, he, hblank⟩ := hrest'
      rw [List.nil_append, hblank] at hhead
      cases hhead
      have hblanks : blanks.all (· ∉ ['/', '*']) := by decide
      exact absurd hd (of_decide_eq_true (List.all_eq_true.mp hblanks d he))
  · rw [hrest'.startsGap.endsWord.any_isDigit_append] at hdigit
    rwa [hrest.endsWord.any_isDigit_append]

/-- A lexeme that ends where a gap starts, or a gap piece that ends before, is the same before
another gap that starts with a blank. -/
theorem LexemeAt.exchange (h : LexemeAt ctx c (cs ++ rest) ⟨kind, more⟩) (hmore : more ≤ cs.length)
    (hgap : kind = none → more < cs.length) (hrest : StartsGap rest) (hrest' : StartsBlank rest') :
    LexemeAt ctx c (cs ++ rest') ⟨kind, more⟩ := by
  have hwords := hrest.endsWord
  have hwords' := hrest'.startsGap.endsWord
  refine h.exchange_rest hmore ?line ?word ?number ?punct
  case line =>
    rintro hkind rfl
    exact lineLength_append (hgap hkind) rest'
  case word =>
    intro _ _ word _ _ _
    rw [identLength_append hwords, identLength_append hwords']
  case number =>
    intro hex _
    rw [numberLength_append hwords, numberLength_append hwords']
  case punct =>
    intro hstarts _
    refine ⟨hstarts.exchange hrest hrest', ?_⟩
    rw [punctLength_append hrest.endsPunct, punctLength_append hrest'.startsGap.endsPunct]

end Exchange

end EdgeBundle.Lexer
