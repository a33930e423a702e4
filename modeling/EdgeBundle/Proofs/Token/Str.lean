import EdgeBundle.Proofs.Text.Quoted
import EdgeBundle.Proofs.Token.Semicolon
import EdgeBundle.Proofs.Token.Spelling

/-!
# String literals

A string literal ends at its closing quote, whatever follows it. So a source can be cut after a
string, and go on there with any other text. The quoted form of a text is one string literal.

## Main statements

* `exists_cut_str`: a source cut after a string.
* `isToken_quoted`: the quoted form of a text.
-/

namespace EdgeBundle.Lexer

/-- A string is opened by a quote and closed by the same one. -/
theorem LexemeAt.of_str {ctx : Context} {c : Char} {cs : List Char} {more : Nat}
    (h : LexemeAt ctx c cs ⟨some .str, more⟩) :
    (c = '\'' ∨ c = '"') ∧ stringLength c 0 cs = some more := by
  cases h with
  | str hc hn => exact ⟨hc, hn⟩
  | template _ hn => rcases templateLength_kind hn with h | h <;> cases h

/-- A source can be cut after a string, and go on there with any other text. -/
theorem exists_cut_str {pre post : String} {before after : List Token} {s : Token}
    (h : tokenize (pre ++ post) = .ok (before ++ s :: after)) (hs : s.kind = .str)
    (hstop : s.stop = pre.utf8ByteSize) :
    ∃ ctx, Scans ctx pre.utf8ByteSize post.toList after ∧
      ∀ (post' : String) ts, Scans ctx pre.utf8ByteSize post'.toList ts →
        tokenize (pre ++ post') = .ok (before ++ s :: ts) := by
  have hmem : s ∈ before ++ s :: after := List.mem_append_right _ List.mem_cons_self
  obtain ⟨_, lead, c, rest, more, hsrc, hstart, hl, htext⟩ := exists_lexemeAt_of_tokenize h hmem
  rw [hs] at hl
  obtain ⟨hc, hn⟩ := hl.of_str
  have hquote : c ∉ ['#', '!'] ∧ EndsAlike c c := by
    rcases hc with rfl | rfl <;> decide
  obtain ⟨hcut, hback⟩ := exists_cut_of_tokenize h hsrc hstart hquote.1
  -- the text before the cut ends with the string
  have hle := stringLength_le hn
  rw [Nat.zero_add] at hle
  have hwidth : pre.utf8ByteSize = utf8Width (lead ++ c :: rest.take more) := by
    rw [← hstop, Token.stop, hstart, ← utf8Width_toList, htext, utf8Width_append]
  obtain ⟨mid, hpre, hrest⟩ : ∃ mid, pre.toList = lead ++ c :: rest.take more ++ mid ∧
      rest.drop more = mid ++ post.toList := by
    refine exists_append_of_width_le ?_ (by rw [← hwidth, utf8Width_toList])
    rw [List.append_assoc, List.cons_append, List.take_append_drop, ← hsrc, String.toList_append]
  obtain rfl : mid = [] := by
    rw [← utf8Width_toList, hpre, utf8Width_append] at hwidth
    exact utf8Width_eq_zero_iff.mp (by omega)
  rw [List.append_nil] at hpre
  rw [List.nil_append] at hrest
  rw [hwidth, utf8Width_append]
  -- the string is read in the same way wherever it stands
  have hs' : s = ⟨.str, utf8Width lead, String.ofList (c :: rest.take more)⟩ := by
    obtain ⟨kind, start, text⟩ := s
    rw [← htext, String.ofList_toList, ← hs, ← hstart]
  refine ⟨(Context.after {} before).push s, ?_, fun post' ts hrun => ?_⟩
  · cases hcut with
    | gap hl' => cases hl'.unique (.str hc hn)
    | token hl' _ hrun =>
      cases hl'.unique (.str hc hn)
      rwa [← hrest]
  · have hlength : (rest.take more).length = more := by
      rw [List.length_take, Nat.min_eq_left hle]
    have hn' :
        stringLength c 0 (rest.take more ++ post'.toList) = some (rest.take more).length := by
      rw [hlength]
      exact (stringLength_take hn).2 post'.toList
    rw [hs'] at hrun ⊢
    have htokens := hback c (rest.take more ++ post'.toList) _ hquote.2 hquote.1
      (.read (.str hc hn') hrun)
    rw [← htokens]
    congr 1
    apply String.toList_injective
    rw [String.toList_append, String.toList_ofList, hpre, List.append_assoc, List.cons_append]

/-! ## Quoted texts -/

/-- A string goes on behind a character that neither ends nor escapes. -/
theorem stringLength_cons {quote c : Char} (hline : c ≠ '\n') (hquote : c ≠ quote)
    (hescape : c ≠ '\\') (n : Nat) (cs : List Char) :
    stringLength quote n (c :: cs) = stringLength quote (n + 1) cs := by
  rw [stringLength, if_neg hline, if_neg hquote]
  exact hescape

/-- A string in double quotes goes on behind the written form of a character. -/
theorem stringLength_escape (c : Char) (n : Nat) (cs : List Char) :
    stringLength '"' n (Quoted.escape c ++ cs) =
      stringLength '"' (n + (Quoted.escape c).length) cs := by
  by_cases hmem : c ∈ Json.simpleEscapes.map Prod.fst
  · obtain ⟨p, hp, rfl⟩ := List.mem_map.mp hmem
    rw [(Json.escape_of_mem p hp).1]
    rfl
  · have hquote : c ≠ '"' := fun h => hmem (h ▸ by decide)
    have hescape : c ≠ '\\' := fun h => hmem (h ▸ by decide)
    have hline : c ≠ '\n' := fun h => hmem (h ▸ by decide)
    rw [Json.escape_of_not_mem hmem]
    split
    -- the digits of a control character are plain characters
    next hcontrol =>
      have hdigit : ∀ n < 16, Quoted.hexDigit n ≠ '\n' ∧ Quoted.hexDigit n ≠ '"' ∧
          Quoted.hexDigit n ≠ '\\' := by
        decide
      obtain ⟨hline₁, hquote₁, hescape₁⟩ := hdigit (c.toNat / 16) (by omega)
      obtain ⟨hline₂, hquote₂, hescape₂⟩ := hdigit (c.toNat % 16) (by omega)
      simp only [List.cons_append, List.nil_append, List.length_cons, List.length_nil]
      rw [stringLength, stringLength_cons (by decide) (by decide) (by decide),
        stringLength_cons (by decide) (by decide) (by decide),
        stringLength_cons hline₁ hquote₁ hescape₁, stringLength_cons hline₂ hquote₂ hescape₂]
    next => exact stringLength_cons hline hquote hescape n cs

/-- The written forms of characters are read up to the closing quote. -/
theorem stringLength_flatMap_escape (s : List Char) (n : Nat) :
    stringLength '"' n (s.flatMap Quoted.escape ++ ['"']) =
      some (n + (s.flatMap Quoted.escape ++ ['"']).length) := by
  induction s generalizing n with
  | nil => rfl
  | cons c s ih =>
    rw [List.flatMap_cons, List.append_assoc, stringLength_escape, ih, Nat.add_assoc,
      ← List.length_append]

/-- The quoted form of a text is one string. -/
theorem isToken_quoted (s : String) : IsToken .str (quoted s) := by
  have htext : (quoted s).toList = '"' :: (s.toList.flatMap Quoted.escape ++ ['"']) := by
    rw [quoted, String.toList_ofList, Quoted.encode, List.cons_append]
  have hlength := stringLength_flatMap_escape s.toList 0
  rw [Nat.zero_add] at hlength
  have hbang : hashbangLength (quoted s).toList = 0 := by
    rw [htext]
    rfl
  rw [IsToken, tokenize_eq_ok_iff, hbang, List.take_zero, List.drop_zero, htext]
  refine .token (.str (.inr rfl) hlength) ?_ ?_
  · rw [List.take_length, ← htext, String.ofList_toList]
    rfl
  · rw [List.drop_length]
    exact .done

end EdgeBundle.Lexer
