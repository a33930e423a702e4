import EdgeBundle.Proofs.Token.Junction
import EdgeBundle.Proofs.Token.Layout
import EdgeBundle.Proofs.Token.Shape

/-!
# Lexical errors

The lexer fails at a literal or block comment that has no end. What it has read before is read in
the same way without the rest of the source: a lexeme that stops at the place of the error stops at
the end of a source too. So the source before the error is accepted, and the error is about the
construct that starts where it says.

## Main definitions

* `Endless`: a construct at the start of a text that has no end.

## Main statements

* `lexeme_eq_error_iff`: the lexer fails exactly at constructs without an end.
* `LexemeAt.truncate`: a lexeme at the end of a source.
* `exists_scans_of_scan_eq_error`: a run up to an error.
* `tokenize_eq_error`: an error points at a construct without an end after an accepted source.
-/

namespace EdgeBundle.Lexer

/-! ## Constructs without an end -/

/-- The construct that starts the text has no end. -/
inductive Endless (ctx : Context) : LexFault → List Char → Prop
  | string {quote : Char} {cs : List Char} (hquote : quote = '\'' ∨ quote = '"')
      (hend : ∀ body rest, cs = body ++ quote :: rest → ¬ Unstopped (stringStops quote) body) :
      Endless ctx .unclosedString (quote :: cs)
  | template {opening : Char} {cs : List Char}
      (hopening : opening = '`' ∨ (opening = '}' ∧ ctx.closesSubstitution = true))
      (hend : ∀ kind closing body rest, TemplateEnd kind closing → cs = body ++ (closing ++ rest) →
        ¬ Unstopped templateStops body) :
      Endless ctx .unclosedTemplate (opening :: cs)
  | regex {cs : List Char} (hctx : ctx.allowsRegex = true)
      (hcomment : cs.head? ≠ some '/' ∧ cs.head? ≠ some '*')
      (hend : ∀ body rest, cs = body ++ '/' :: rest → ¬ RegexText body) :
      Endless ctx .unclosedRegex ('/' :: cs)
  | comment {cs : List Char} (hend : ¬ ['*', '/'] <:+: cs) :
      Endless ctx .unclosedComment ('/' :: '*' :: cs)

section Lexemes

variable {ctx : Context} {c : Char} {cs rest : List Char} {fault : LexFault}

theorem Endless.of_lexeme (h : lexeme ctx c cs = .error fault) : Endless ctx fault (c :: cs) := by
  -- branch by branch; only four of them can fail, each where no end is found
  simp only [lexeme] at h
  split at h
  next => cases h
  split at h
  next => cases h
  split at h
  next hblock =>
    split at h
    next => cases h
    next hn =>
      cases h
      obtain ⟨rfl, hstar⟩ := hblock
      obtain ⟨cs, rfl⟩ : ∃ cs', cs = '*' :: cs' := by
        cases cs <;> simp_all
      exact .comment (commentLength_eq_none_iff.mp hn)
  split at h
  next hquote =>
    split at h
    next => cases h
    next hn =>
      cases h
      refine .string hquote ?_
      rintro body rest rfl hbody
      rw [hbody.stringLength_append hquote] at hn
      cases hn
  split at h
  next hopening =>
    split at h
    next => cases h
    next hn =>
      cases h
      refine .template hopening ?_
      rintro kind closing body rest hclosing rfl hbody
      rw [hbody.templateLength_append hclosing] at hn
      cases hn
  split at h
  next hline hblock _ _ hslash =>
    split at h
    next => cases h
    next hn =>
      cases h
      obtain ⟨rfl, hctx⟩ := hslash
      refine .regex hctx ⟨fun hd => hline ⟨rfl, hd⟩, fun hd => hblock ⟨rfl, hd⟩⟩ ?_
      rintro body rest rfl hbody
      rw [hbody.regexLength_append] at hn
      cases hn
  split at h
  next => cases h
  split at h
  next => cases h
  split at h
  next => cases h
  next => cases h

/-- The lexer fails exactly at constructs without an end. -/
theorem lexeme_eq_error_iff : lexeme ctx c cs = .error fault ↔ Endless ctx fault (c :: cs) := by
  refine ⟨.of_lexeme, fun h => ?_⟩
  -- if the construct had an end, its end would be in the text
  cases h with
  | string hquote hend =>
    have hnone : stringLength c 0 cs = none := by
      refine Option.eq_none_iff_forall_ne_some.mpr fun m hm => ?_
      obtain ⟨body, rest, hcs, -, hbody⟩ := (stringLength_eq_some_iff hquote).mp hm
      exact hend body rest hcs hbody
    rcases hquote with rfl | rfl <;> simp [lexeme, hnone, isBlank]
  | template hopening hend =>
    have hnone : templateLength 0 cs = none := by
      refine Option.eq_none_iff_forall_ne_some.mpr ?_
      rintro ⟨kind, m⟩ hm
      obtain ⟨body, closing, rest, hclosing, hcs, -, hbody⟩ := templateLength_eq_some_iff.mp hm
      exact hend kind closing body rest hclosing hcs hbody
    rcases hopening with rfl | ⟨rfl, hctx⟩
    · simp [lexeme, hnone, isBlank]
    · simp [lexeme, hnone, hctx, isBlank]
  | regex hctx hcomment hend =>
    have hnone : regexLength false 0 cs = none := by
      refine Option.eq_none_iff_forall_ne_some.mpr fun m hm => ?_
      obtain ⟨body, rest, hcs, -, hbody⟩ := regexLength_eq_some_iff.mp hm
      exact hend body rest hcs hbody
    simp [lexeme, hnone, hctx, hcomment.1, hcomment.2, isBlank]
  | comment hend => simp [lexeme, commentLength_eq_none_iff.mpr hend, isBlank]

/-- A construct without an end starts with none of the characters that go on with a lexeme before.
-/
theorem Endless.not_isDigit (h : Endless ctx fault (c :: cs)) : c.isDigit = false := by
  cases h with
  | string hquote => rcases hquote with rfl | rfl <;> rfl
  | template hopening => rcases hopening with rfl | ⟨rfl, -⟩ <;> rfl
  | regex => rfl
  | comment => rfl

end Lexemes

/-! ## Lexemes at the end of a source -/

section Ends

variable {ctx : Context} {c : Char} {cs rest : List Char}

/-- Characters that are counted up to a place are counted without what comes after it. -/
theorem length_takeWhile_of_le {p : Char → Bool}
    (h : ((cs ++ rest).takeWhile p).length ≤ cs.length) :
    (cs.takeWhile p).length = ((cs ++ rest).takeWhile p).length := by
  rw [List.takeWhile_append] at h ⊢
  split at h
  next hall =>
    rw [List.length_append] at h
    rw [if_pos hall, List.length_append]
    omega
  next hall => rw [if_neg hall]

theorem numberLength_of_le {hex : Bool} {last : Char} {n : Nat}
    (h : numberLength hex last n (cs ++ rest) ≤ n + cs.length) :
    numberLength hex last n cs = numberLength hex last n (cs ++ rest) := by
  induction cs generalizing last n with
  | nil => exact Nat.le_antisymm (le_numberLength hex last n _) h
  | cons d cs ih =>
    simp only [List.cons_append, numberLength, List.length_cons] at h ⊢
    split at h
    next hgo =>
      rw [if_pos hgo, if_pos hgo]
      apply ih
      omega
    next hstop => rw [if_neg hstop, if_neg hstop]

namespace StartsWithPunct

variable {p : String}

/-- A punctuator that starts a text starts it before other text, unless a number comes next. -/
theorem append (h : StartsWithPunct p cs) (hrest : ∀ d ∈ rest.head?, d.isDigit = false) :
    StartsWithPunct p (cs ++ rest) where
  isPrefix := h.isPrefix.trans (List.prefix_append cs rest)
  not_number := by
    intro hp d hd
    have hlength : 2 ≤ cs.length := by
      have := h.isPrefix.length_le
      rwa [hp] at this
    rw [List.drop_append_of_le_length hlength] at hd
    cases hdrop : cs.drop 2 with
    | nil =>
      rw [hdrop] at hd
      exact hrest d hd
    | cons e tail =>
      rw [hdrop, List.cons_append] at hd
      apply h.not_number hp
      rw [hdrop]
      exact hd

/-- A punctuator starts the text in which it stands. -/
theorem of_append (h : StartsWithPunct p (cs ++ rest)) (hlength : p.toList.length ≤ cs.length) :
    StartsWithPunct p cs where
  isPrefix := List.prefix_of_prefix_length_le h.isPrefix (List.prefix_append cs rest) hlength
  not_number := by
    intro hp d hd
    apply h.not_number hp
    cases hdrop : cs.drop 2 with
    | nil =>
      rw [hdrop] at hd
      cases hd
    | cons e tail =>
      rw [hdrop] at hd
      have hle : 2 ≤ cs.length := by
        have := congrArg List.length hdrop
        rw [List.length_drop, List.length_cons] at this
        omega
      rw [List.drop_append_of_le_length hle, hdrop]
      exact hd

end StartsWithPunct

/-- A punctuator at the end of a source is the same before text that no number goes on with. -/
theorem punctLength_of_le (h : punctLength (c :: (cs ++ rest)) ≤ cs.length)
    (hrest : ∀ d ∈ rest.head?, d.isDigit = false) :
    punctLength (c :: cs) = punctLength (c :: (cs ++ rest)) := by
  rw [← List.cons_append] at h ⊢
  cases hfound : longPunct? (c :: cs ++ rest) with
  | none =>
    have hnone : longPunct? (c :: cs) = none := by
      refine Option.eq_none_iff_forall_ne_some.mpr fun p hp => ?_
      obtain ⟨hmem, hstarts, -⟩ := longPunct?_eq_some_iff.mp hp
      exact not_startsWithPunct_of_longPunct? hfound p hmem (hstarts.append hrest)
    rw [punctLength, punctLength, hfound, hnone]
  | some p =>
    obtain ⟨hmem, hstarts, hlongest⟩ := longPunct?_eq_some_iff.mp hfound
    have hlength : p.toList.length ≤ (c :: cs).length := by
      rw [punctLength, hfound, Option.map_some, Option.getD_some] at h
      rw [List.length_cons, String.length_toList]
      omega
    have hsome : longPunct? (c :: cs) = some p := by
      refine longPunct?_eq_some_iff.mpr ⟨hmem, hstarts.of_append hlength, ?_⟩
      intro q hq hqstarts
      exact hlongest q hq (hqstarts.append hrest)
    rw [punctLength, punctLength, hfound, hsome]

theorem StartsPunct.truncate (h : StartsPunct ctx c (cs ++ rest)) : StartsPunct ctx c cs := by
  have hhead {d : Char} (hd : cs.head? = some d) : (cs ++ rest).head? = some d :=
    List.mem_head?_append_of_mem_head? hd
  refine h.of_head (fun _ d _ => hhead) fun hdigit => ?_
  obtain ⟨d, hd, hisDigit⟩ := (Option.any_eq_true _ _).mp hdigit
  rwa [hhead hd]

/-- A lexeme that stops before text that no number goes on with is the same at the end of a source.
-/
theorem LexemeAt.truncate {kind : Option TokenKind} {more : Nat}
    (h : LexemeAt ctx c (cs ++ rest) ⟨kind, more⟩) (hmore : more ≤ cs.length)
    (hrest : ∀ d ∈ rest.head?, d.isDigit = false) : LexemeAt ctx c cs ⟨kind, more⟩ := by
  rw [← List.append_nil cs]
  refine h.exchange_rest hmore ?line ?word ?number ?punct
  case line =>
    rintro - rfl
    rw [List.append_nil]
    exact length_takeWhile_of_le hmore
  case word =>
    intro _ _ word _ _ hle
    rw [List.append_nil]
    exact length_takeWhile_of_le hle
  case number =>
    intro hex hle
    rw [List.append_nil]
    exact numberLength_of_le (by rwa [Nat.zero_add])
  case punct =>
    intro hstarts hle
    rw [List.append_nil]
    exact ⟨hstarts.truncate, punctLength_of_le hle hrest⟩

end Ends

/-! ## Runs up to an error -/

/-- What is read before an error is read without the rest of the source, too. -/
theorem exists_scans_of_scan_eq_error {ctx : Context} {offset : Nat} {cs : List Char} {e : LexError}
    (h : scan ctx offset cs = .error e) :
    ∃ before c rest ts, cs = before ++ c :: rest ∧ e.offset = offset + utf8Width before ∧
      Scans ctx offset before ts ∧ Endless (ctx.after ts) e.fault (c :: rest) := by
  -- on the run of the lexer; each lexeme before the error is cut off with the rest
  fun_induction scan ctx offset cs with
  | case1 => cases h
  | case2 ctx offset c cs fault hl =>
    cases h
    exact ⟨[], c, cs, [], rfl, rfl, .done, .of_lexeme hl⟩
  | case3 ctx offset c cs kind more hl text ctx' ih =>
    obtain ⟨before, d, rest, ts, hdrop, hoffset, hrun, hendless⟩ := ih h
    have hcs : cs = (cs.take more ++ before) ++ d :: rest := by
      rw [List.append_assoc, ← hdrop, List.take_append_drop]
    have hmore : (cs.take more).length = more := by
      -- the rest of the source is not empty
      rw [List.length_take, Nat.min_eq_left]
      by_contra hlong
      rw [List.drop_eq_nil_of_le (Nat.not_le.mp hlong).le] at hdrop
      simp at hdrop
    have hnext : ∀ e ∈ (d :: rest).head?, e.isDigit = false := by
      intro e he
      cases he
      exact hendless.not_isDigit
    have hl' : LexemeAt ctx c (cs.take more ++ before) ⟨kind, (cs.take more).length⟩ := by
      have hread := lexeme_eq_ok_iff.mp hl
      rw [hcs] at hread
      rw [hmore]
      refine hread.truncate ?_ hnext
      rw [List.length_append, hmore]
      exact Nat.le_add_right _ _
    have hplace : e.offset = offset + utf8Width (c :: cs.take more ++ before) := by
      rw [hoffset, utf8Width_append, Nat.add_assoc]
    cases kind with
    | none =>
      refine ⟨c :: cs.take more ++ before, d, rest, ts, ?_, hplace, .skip hl' hrun, hendless⟩
      rw [List.append_assoc, List.cons_append, ← hdrop, List.take_append_drop]
    | some kind =>
      refine ⟨c :: cs.take more ++ before, d, rest, _ :: ts, ?_, hplace, .read hl' hrun, hendless⟩
      rw [List.append_assoc, List.cons_append, ← hdrop, List.take_append_drop]

/-- The start of a source has the hashbang line of the source. -/
theorem Hashbang.hashbangLength_append {line before rest : List Char}
    (h : Hashbang (before ++ rest) line) : hashbangLength (line ++ before) = line.length := by
  rw [hashbangLength_eq]
  cases h with
  | none hnot =>
    rw [List.nil_append, if_neg]
    · rfl
    · intro hstarts
      apply hnot
      exact (List.isPrefixOf_iff_prefix.mp hstarts).trans (List.prefix_append before rest)
  | @line body hbody hrest =>
    have hline : '\n' ∉ '#' :: '!' :: body := by
      simp [hbody]
    have hends : EndsLine before := by
      cases before with
      | nil => exact .inl rfl
      | cons d before =>
        rcases hrest with hnil | hhead
        · cases hnil
        · exact .inr hhead
    have hstarts : ['#', '!'].isPrefixOf ('#' :: '!' :: body ++ before) = true := rfl
    rw [if_pos hstarts, lineLength_append_of_endsLine hline hends]

/-- The source before an error is accepted, and its tokens are those that were read. -/
theorem tokenize_append_of_scans {line before rest : List Char} {ts : List Token}
    (hline : Hashbang (before ++ rest) line) (hrun : Scans {} (utf8Width line) before ts) :
    tokenize (String.ofList (line ++ before)) = .ok ts := by
  rw [tokenize_eq_ok_iff, String.toList_ofList, hline.hashbangLength_append, List.take_left,
    List.drop_left]
  exact hrun

/-- An error points at a construct without an end, and the source before it is accepted. -/
theorem tokenize_eq_error {src : String} {e : LexError} (h : tokenize src = .error e) :
    ∃ before after : String, src = before ++ after ∧ before.utf8ByteSize = e.offset ∧
      e.offset < src.utf8ByteSize ∧
      ∃ ts, tokenize before = .ok ts ∧ Endless (Context.after {} ts) e.fault after.toList := by
  obtain ⟨line, tail, hsrc, hline, hscan⟩ : ∃ line tail, src.toList = line ++ tail ∧
      Hashbang tail line ∧ scan {} (utf8Width line) tail = .error e := by
    refine ⟨_, _, (List.take_append_drop _ _).symm, hashbang_hashbangLength src.toList, ?_⟩
    rw [tokenize] at h
    cases hscan : scan {} (utf8Width (src.toList.take (hashbangLength src.toList)))
        (src.toList.drop (hashbangLength src.toList)) with
    | ok ts => rw [hscan] at h; cases h
    | error e' => rw [hscan] at h; cases h; rfl
  -- the lexer stops at the first lexeme that it cannot read
  obtain ⟨before, c, rest, ts, rfl, hoffset, hrun, hendless⟩ :=
    exists_scans_of_scan_eq_error hscan
  have hwidth : utf8Width (line ++ before) = e.offset := by
    rw [hoffset, utf8Width_append]
  have hsrc' : src = String.ofList (line ++ before) ++ String.ofList (c :: rest) := by
    rw [← String.ofList_append, List.append_assoc, ← hsrc, String.ofList_toList]
  refine ⟨String.ofList (line ++ before), String.ofList (c :: rest), hsrc', ?_, ?_, ts,
    tokenize_append_of_scans hline hrun, ?_⟩
  · rw [utf8ByteSize_ofList, hwidth]
  · -- the construct has a character at least
    have hpos := c.utf8Size_pos
    rw [hsrc', String.utf8ByteSize_append, utf8ByteSize_ofList, utf8ByteSize_ofList, hwidth,
      utf8Width_cons]
    omega
  · rwa [String.toList_ofList]

/-- Template text that breaks off after a substitution: the brace that ends the substitution starts
what has no end. -/
theorem tokenize_eq_error_substitution :
    tokenize "`é$\x7bx\x7d /* '" = .error ⟨6, .unclosedTemplate⟩ ∧
      ∃ before after : String, "`é$\x7bx\x7d /* '" = before ++ after ∧ before.utf8ByteSize = 6 ∧
        6 < "`é$\x7bx\x7d /* '".utf8ByteSize ∧
        ∃ ts, tokenize before = .ok ts ∧
          Endless (Context.after {} ts) .unclosedTemplate after.toList := by
  have h : tokenize "`é$\x7bx\x7d /* '" = .error ⟨6, .unclosedTemplate⟩ := by
    decide +kernel
  exact ⟨h, tokenize_eq_error h⟩

end EdgeBundle.Lexer
