import EdgeBundle.Proofs.Token.Junction
import EdgeBundle.Proofs.Token.Layout
import EdgeBundle.Proofs.Token.Spelling

/-!
# Runs cut at a semicolon

A semicolon that is no part of a literal or comment is read alike in every context, and whatever
comes after it. So a run can be cut right after one, and go on there with any other text.

## Main statements

* `LexemeAt.eq_semicolon`: a token that ends with a semicolon is the semicolon.
* `Scans.exists_cut_semicolon`: a run cut after a semicolon.
* `exists_cut_of_tokenize`: a source cut where a token starts.
-/

namespace EdgeBundle.Lexer

/-! ## Tokens that end with a semicolon -/

theorem endsWord_semicolon (rest : List Char) : EndsWord (';' :: rest) :=
  endsWord_cons (by decide)

theorem startsAnew_semicolon : StartsAnew ';' := by
  decide +kernel

/-- A punctuator does not reach past its text. -/
theorem punctLength_le (c : Char) (cs : List Char) : punctLength (c :: cs) ≤ cs.length := by
  rw [punctLength]
  cases hp : longPunct? (c :: cs) with
  | none => exact Nat.zero_le _
  | some p =>
    obtain ⟨hfind, -⟩ := Option.filter_eq_some_iff.mp hp
    have hfound := List.find?_some hfind
    have hle := (List.isPrefixOf_iff_prefix.mp hfound).length_le
    rw [String.length_toList, List.length_cons] at hle
    simpa using hle

/-- A semicolon that starts a lexeme is one. -/
theorem LexemeAt.of_semicolon {ctx : Context} {cs : List Char} {l : Lexeme}
    (hl : LexemeAt ctx ';' cs l) : l = ⟨some .punct, 0⟩ := by
  cases hl with
  | blank hc => exact absurd hc (by decide)
  | lineComment hc => exact absurd hc (by decide)
  | blockComment hc => exact absurd hc (by decide)
  | str hc => exact absurd hc (by decide)
  | template hc => simp at hc
  | regex hc => exact absurd hc (by decide)
  | number hc => simp at hc
  | ident hc => exact absurd hc (by decide)
  | punct hc => rfl

/-- The last character of a text is in each end of it. -/
theorem mem_of_append_cons_eq {body last word : List Char} {d e : Char}
    (h : body ++ d :: last = word ++ [e]) : e ∈ d :: last := by
  have hlast : (body ++ d :: last).getLast? = some e := by rw [h, List.getLast?_concat]
  rw [List.getLast?_append_cons] at hlast
  exact List.mem_of_getLast? hlast

/-- A token that ends with a semicolon is the semicolon. -/
theorem LexemeAt.eq_semicolon {ctx : Context} {c : Char} {cs : List Char} {kind : TokenKind}
    {more : Nat} (hl : LexemeAt ctx c cs ⟨some kind, more⟩)
    (hlast : (c :: cs.take more).getLast? = some ';') :
    kind = .punct ∧ c = ';' ∧ cs.take more = [] := by
  rcases List.eq_nil_or_concat (cs.take more) with hnil | ⟨word, d, htake⟩
  · rw [hnil] at hlast
    obtain rfl : c = ';' := Option.some.inj hlast
    cases hl.of_semicolon
    exact ⟨rfl, rfl, hnil⟩
  · -- the semicolon comes after the first character
    exfalso
    rw [List.concat_eq_append] at htake
    rw [htake, ← List.cons_append, List.getLast?_concat] at hlast
    obtain rfl : d = ';' := Option.some.inj hlast
    have hcs : cs = word ++ ';' :: cs.drop more := by
      rw [← List.singleton_append, ← List.append_assoc, ← htake, List.take_append_drop]
    have hlt : word.length < more := by
      have := List.length_take_le more cs
      rw [htake, List.length_append, List.length_singleton] at this
      exact this
    have hword := endsWord_semicolon (cs.drop more)
    generalize cs.drop more = rest at hcs hword
    subst hcs
    -- a string ends with its quote, and most kinds end before the semicolon
    cases hl with
    | str hc hn =>
      obtain ⟨body, rest, hcs, rfl, -⟩ := stringLength_eq_some hn
      rw [hcs, ← Nat.add_zero (0 + _), take_append_cons] at htake
      have hmem := mem_of_append_cons_eq htake
      rcases hc with rfl | rfl <;> simp at hmem
    | template hc hn =>
      obtain ⟨body, d, rest, hcs, rfl, hd⟩ := templateLength_eq_some hn
      rw [hcs, ← Nat.add_zero (0 + _), take_append_cons] at htake
      obtain rfl : ';' = d := by simpa using mem_of_append_cons_eq htake
      exact absurd hd (by decide)
    | @regex n hc hd hctx hn =>
      obtain ⟨body, rest, hcs, rfl, -⟩ := regexLength_eq_some hn
      rw [hcs, drop_append_cons, take_append_cons] at htake
      rcases List.mem_cons.mp (mem_of_append_cons_eq htake) with hslash | hflag
      · cases hslash
      · exact absurd (isIdentPart_of_mem_take hflag) (by decide)
    | number =>
      rw [numberLength_append hword] at hlt
      have := numberLength_le (c = '0' && ((word ++ ';' :: rest).head? == some 'x' ||
        (word ++ ';' :: rest).head? == some 'X')) c 0 word
      omega
    | ident =>
      rw [identLength_append hword] at hlt
      exact absurd hlt (Nat.not_lt.mpr (identLength_le word))
    | punct =>
      rw [punctLength_append (startsAnew_semicolon.endsPunct rest)] at hlt
      exact absurd hlt (Nat.not_lt.mpr (punctLength_le c word))

/-- A token of a source that stops after a semicolon is the semicolon. -/
theorem eq_semicolon_of_stop {src : String} {ts : List Token} {t : Token} {pre post : List Char}
    (h : tokenize src = .ok ts) (ht : t ∈ ts) (hsrc : src.toList = pre ++ ';' :: post)
    (hstop : t.stop = utf8Width pre + 1) : t = ⟨.punct, utf8Width pre, ";"⟩ := by
  obtain ⟨ctx, before, c, rest, more, hsplit, hstart, hl, htext⟩ := exists_lexemeAt_of_tokenize h ht
  have hsize : ';'.utf8Size = 1 := rfl
  have hwidth : utf8Width (before ++ c :: rest.take more) = utf8Width (pre ++ [';']) := by
    rw [utf8Width_append, ← hstart, ← htext, utf8Width_toList, utf8Width_append, utf8Width_cons,
      utf8Width_nil, hsize]
    exact hstop
  have htexts : (before ++ c :: rest.take more) ++ rest.drop more = (pre ++ [';']) ++ post := by
    rw [List.append_assoc, List.cons_append, List.take_append_drop, ← hsplit, hsrc,
      List.append_assoc, List.singleton_append]
  obtain ⟨mid, hpre, -⟩ := exists_append_of_width_le htexts hwidth.le
  obtain rfl : mid = [] := by
    rw [hpre, utf8Width_append _ mid] at hwidth
    exact utf8Width_eq_zero_iff.mp (by omega)
  rw [List.append_nil] at hpre
  have hlast : (c :: rest.take more).getLast? = some ';' := by
    rw [← List.getLast?_append_cons before, ← hpre, List.getLast?_concat]
  obtain ⟨hkind, rfl, hnil⟩ := hl.eq_semicolon hlast
  rw [hnil] at htext hpre
  obtain rfl : pre = before := (List.append_inj' hpre rfl).1
  have hsemicolon : t.text = ";" := String.toList_inj.mp (by rw [htext]; rfl)
  obtain ⟨kind, start, text⟩ := t
  rw [Token.mk.injEq]
  exact ⟨hkind, hstart, hsemicolon⟩

/-! ## Cuts -/

/-- A semicolon is read as a token of its own. -/
theorem Scans.of_semicolon {ctx : Context} {offset : Nat} {cs : List Char} {ts : List Token}
    (h : Scans ctx offset (';' :: cs) ts) :
    ∃ us, ts = ⟨.punct, offset, ";"⟩ :: us ∧
      Scans (ctx.push ⟨.punct, offset, ";"⟩) (offset + 1) cs us := by
  cases h with
  | gap hl => cases hl.of_semicolon
  | token hl ht hrest =>
    cases hl.of_semicolon
    subst ht
    exact ⟨_, rfl, hrest⟩

/-- A run can be cut after a semicolon, and go on there with any other text. -/
theorem Scans.exists_cut_semicolon {ctx : Context} {offset : Nat} {pre tail : List Char}
    {before after : List Token}
    (h : Scans ctx offset (pre ++ ';' :: tail)
      (before ++ ⟨.punct, offset + utf8Width pre, ";"⟩ :: after)) :
    Scans (ctx.after (before ++ [⟨.punct, offset + utf8Width pre, ";"⟩]))
        (offset + utf8Width pre + 1) tail after ∧
      ∀ tail' ts, Scans (ctx.after (before ++ [⟨.punct, offset + utf8Width pre, ";"⟩]))
          (offset + utf8Width pre + 1) tail' ts →
        Scans ctx offset (pre ++ ';' :: tail')
          (before ++ ⟨.punct, offset + utf8Width pre, ";"⟩ :: ts) := by
  obtain ⟨hcut, hreads⟩ := h.exists_cut_token rfl
  obtain ⟨_, htokens, hrest⟩ := hcut.of_semicolon
  obtain ⟨-, rfl⟩ := List.cons.inj htokens
  rw [Context.after, List.foldl_append]
  refine ⟨hrest, fun tail' ts hrun => ?_⟩
  exact hreads ';' tail' _ (by decide) (.punct (by simp) rfl hrun)

/-- A source can be cut where a token starts, and go on there with other text before which lexemes
end alike. -/
theorem exists_cut_of_tokenize {src : String} {pre tail : List Char} {d : Char}
    {before after : List Token} {t : Token} (h : tokenize src = .ok (before ++ t :: after))
    (hsrc : src.toList = pre ++ d :: tail) (hstart : t.start = utf8Width pre)
    (hd : d ∉ ['#', '!']) :
    Scans (Context.after {} before) (utf8Width pre) (d :: tail) (t :: after) ∧
      ∀ d' tail' ts, EndsAlike d d' → d' ∉ ['#', '!'] →
        Scans (Context.after {} before) (utf8Width pre) (d' :: tail') ts →
          tokenize (String.ofList (pre ++ d' :: tail')) = .ok (before ++ ts) := by
  obtain ⟨line, rest, hsplit, hline, hrun⟩ := tokenize_eq_ok_iff_exists_line.mp h
  -- the hashbang line ends before the token starts
  have hle := hrun.covers.offset_le_start (List.mem_append_right before List.mem_cons_self)
  rw [hstart] at hle
  obtain ⟨pre, rfl, rfl⟩ := exists_append_of_width_le (hsplit.symm.trans hsrc) hle
  rw [utf8Width_append] at hstart ⊢
  obtain ⟨hcut, hreads⟩ := hrun.exists_cut_token hstart
  refine ⟨hcut, fun d' tail' ts hends hd' hrun' => ?_⟩
  refine tokenize_eq_ok_iff_exists_line.mpr
    ⟨line, pre ++ d' :: tail', by rw [String.toList_ofList, List.append_assoc], ?_,
      hreads d' tail' ts hends hrun'⟩
  have hhead {e : Char} {cs : List Char} (he : e ∉ ['#', '!']) :
      ['#', '!'].isPrefixOf (line ++ pre ++ e :: cs) = ['#', '!'].isPrefixOf (line ++ pre) :=
    isPrefixOf_append_of_head fun _ h => Option.some.inj h ▸ he
  rw [hsrc, hashbangLength_eq, hhead hd] at hline
  rw [String.toList_ofList, hashbangLength_eq, hhead hd', hline]
  split
  next hstarts =>
    rw [if_pos hstarts] at hline
    have hnewline : d ≠ '\n' := by
      rintro rfl
      exact hends.left.not_mem (by decide)
    have hle : line.length ≤ (line ++ pre).length := by
      rw [List.length_append]
      exact Nat.le_add_right _ _
    rw [hline] at hle
    exact (lineLength_append (Nat.lt_of_le_of_ne hle (lineLength_ne hnewline)) _).symm
  next => rfl

end EdgeBundle.Lexer
