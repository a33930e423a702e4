import EdgeBundle.Proofs.Text.Width
import EdgeBundle.Proofs.Token.Scan

/-!
# Tokens and gaps

An accepted source is gaps and tokens in turn, after a hashbang line if there is one. Gaps are
blanks and comments, so no character of code is left out of the tokens.

## Main definitions

* `Gap`: text without tokens.
* `Covers`: a source as gaps and tokens in turn, with the offsets of the tokens.
* `Token.StandsAt`: the text of a token stands in the source at its offset.

## Main statements

* `tokenize_isCover`: the tokens of an accepted source are all of it but for gaps; they are
  non-empty, whole characters, and in order.
-/

namespace EdgeBundle

/-- The text of the token stands in the source at the offset of the token. -/
def Token.StandsAt (t : Token) (src : List Char) : Prop :=
  ∃ before after, src = before ++ (t.text.toList ++ after) ∧ utf8Width before = t.start

/-- A token stops where the text that ends with it does. -/
theorem Token.utf8Width_append_text {t : Token} {before : List Char}
    (h : utf8Width before = t.start) : utf8Width (before ++ t.text.toList) = t.stop := by
  rw [utf8Width_append, h, utf8Width_toList, Token.stop]

namespace Token.StandsAt

variable {t : Token} {src : List Char}

theorem isBoundary_start (h : t.StandsAt src) : IsBoundary src t.start := by
  obtain ⟨before, after, rfl, hstart⟩ := h
  exact ⟨before, t.text.toList ++ after, rfl, hstart⟩

theorem isBoundary_stop (h : t.StandsAt src) : IsBoundary src t.stop := by
  obtain ⟨before, after, rfl, hstart⟩ := h
  exact ⟨before ++ t.text.toList, after, by simp, utf8Width_append_text hstart⟩

/-- A token between two places of a source is part of the text between them. -/
theorem exists_between {before cut after : List Char}
    (h : t.StandsAt (before ++ (cut ++ after))) (hstart : utf8Width before ≤ t.start)
    (hstop : t.stop ≤ utf8Width (before ++ cut)) :
    ∃ x y, cut = x ++ (t.text.toList ++ y) ∧ utf8Width (before ++ x) = t.start := by
  obtain ⟨lead, rest, heq, hlead⟩ := h
  obtain ⟨x, rfl, hcut⟩ := exists_append_of_width_le heq (hlead ▸ hstart)
  rw [← List.append_assoc] at hcut
  rw [← utf8Width_append_text hlead, List.append_assoc, utf8Width_append, utf8Width_append before]
    at hstop
  obtain ⟨y, rfl, -⟩ := exists_append_of_width_le hcut.symm (Nat.le_of_add_le_add_left hstop)
  exact ⟨x, y, List.append_assoc .., hlead⟩

/-- A token that stops inside the first part of a source is part of it. -/
theorem exists_of_stop_le {pre post : List Char} (h : t.StandsAt (pre ++ post))
    (hstop : t.stop ≤ utf8Width pre) :
    ∃ x y, pre = x ++ (t.text.toList ++ y) ∧ utf8Width x = t.start :=
  @exists_between t [] pre post h (Nat.zero_le _) hstop

end Token.StandsAt

namespace Lexer

/-! ## Gaps -/

/-- Characters that may stand between tokens. -/
def blanks : List Char :=
  [' ', '\t', '\n', '\r', '\x0b', '\x0c']

/-- A line ends before the text. -/
def EndsLine (rest : List Char) : Prop :=
  rest = [] ∨ rest.head? = some '\n'

/-- A blank or comment before the text `rest`. -/
inductive GapPiece (rest : List Char) : List Char → Prop
  | blank {c : Char} (hc : c ∈ blanks) : GapPiece rest [c]
  | lineComment {body : List Char} (hbody : '\n' ∉ body) (hrest : EndsLine rest) :
      GapPiece rest ('/' :: '/' :: body)
  -- the first `*/` closes the comment
  | blockComment {body : List Char} (hbody : ¬ ['*', '/'] <:+: body ++ ['*']) :
      GapPiece rest ('/' :: '*' :: (body ++ ['*', '/']))

/-- Blanks and comments before the text `rest`. -/
inductive Gap (rest : List Char) : List Char → Prop
  | nil : Gap rest []
  | cons {piece gap : List Char} (hpiece : GapPiece (gap ++ rest) piece) (hgap : Gap rest gap) :
      Gap rest (piece ++ gap)

/-- A hashbang line before the text `rest`; empty if the source has none. -/
inductive Hashbang (rest : List Char) : List Char → Prop
  | none (h : ¬ ['#', '!'] <+: rest) : Hashbang rest []
  | line {body : List Char} (hbody : '\n' ∉ body) (hrest : EndsLine rest) :
      Hashbang rest ('#' :: '!' :: body)

/-- The source from byte `offset` on is gaps and the tokens in turn. -/
inductive Covers : Nat → List Char → List Token → Prop
  | done {offset : Nat} {gap : List Char} (hgap : Gap [] gap) : Covers offset gap []
  | token {offset : Nat} {gap rest : List Char} {t : Token} {ts : List Token}
      (hgap : Gap (t.text.toList ++ rest) gap) (hstart : t.start = offset + utf8Width gap)
      (htext : t.text ≠ "") (hrest : Covers t.stop rest ts) :
      Covers offset (gap ++ (t.text.toList ++ rest)) (t :: ts)

/-! ## Gaps as the lexer reads them -/

theorem mem_blanks_iff {c : Char} : c ∈ blanks ↔ isBlank c = true := by
  simp [blanks, isBlank, or_assoc]

theorem lineLength_cons (c : Char) (cs : List Char) :
    lineLength (c :: cs) = if c = '\n' then 0 else lineLength cs + 1 := by
  by_cases hc : c = '\n' <;> simp [lineLength, hc]

theorem not_mem_take_lineLength (cs : List Char) : '\n' ∉ cs.take (lineLength cs) := by
  induction cs with
  | nil => simp
  | cons c cs ih =>
    rw [lineLength_cons]
    split
    next => simp
    next hc =>
      rw [List.take_succ_cons, List.mem_cons, not_or]
      exact ⟨fun h => hc h.symm, ih⟩

theorem endsLine_drop_lineLength (cs : List Char) : EndsLine (cs.drop (lineLength cs)) := by
  induction cs with
  | nil => exact .inl rfl
  | cons c cs ih =>
    rw [lineLength_cons]
    split
    next hc => exact .inr (by simp [hc])
    next => rwa [List.drop_succ_cons]

/-- A block comment ends with the first asterisk and slash. -/
theorem commentLength_eq_some {n m : Nat} {cs : List Char} (h : commentLength n cs = some m) :
    ∃ body rest, cs = body ++ ['*', '/'] ++ rest ∧ m = n + (body.length + 2) ∧
      ¬ ['*', '/'] <:+: body ++ ['*'] := by
  fun_induction commentLength n cs with
  | case1 => cases h
  | case2 n rest =>
    cases h
    exact ⟨[], rest, rfl, rfl, by decide⟩
  | case3 n c cs hclose ih =>
    obtain ⟨body, rest, rfl, rfl, hbody⟩ := ih h
    refine ⟨c :: body, rest, by simp, by simp only [List.length_cons]; omega, ?_⟩
    rw [List.cons_append, List.infix_cons_iff, not_or]
    refine ⟨fun hprefix => ?_, hbody⟩
    obtain ⟨rfl, hslash⟩ := List.cons_prefix_cons.mp hprefix
    -- a slash right after the asterisk would have closed the comment before
    cases body with
    | nil => simp at hslash
    | cons d body =>
      obtain ⟨rfl, -⟩ := List.cons_prefix_cons.mp hslash
      exact hclose _ rfl rfl

/-- What the lexer reads without making a token is one piece of a gap. -/
theorem LexemeAt.gapPiece {ctx : Context} {c : Char} {cs : List Char} {more : Nat}
    (h : LexemeAt ctx c cs ⟨none, more⟩) : GapPiece (cs.drop more) (c :: cs.take more) := by
  cases h with
  | blank hc => exact .blank (mem_blanks_iff.mpr hc)
  | lineComment hc hd =>
    subst hc
    obtain ⟨cs, rfl⟩ : ∃ cs', cs = '/' :: cs' := by
      cases cs <;> simp_all
    rw [lineLength_cons, if_neg (by decide), List.take_succ_cons, List.drop_succ_cons]
    exact .lineComment (not_mem_take_lineLength cs) (endsLine_drop_lineLength cs)
  | blockComment hc hd hn =>
    subst hc
    obtain ⟨cs, rfl⟩ : ∃ cs', cs = '*' :: cs' := by
      cases cs <;> simp_all
    obtain ⟨body, rest, rfl, rfl, hbody⟩ := commentLength_eq_some hn
    have htake : (body ++ ['*', '/'] ++ rest).take (body.length + 2) = body ++ ['*', '/'] :=
      List.take_left' (by simp)
    rw [Nat.add_comm 1, List.take_succ_cons, htake]
    exact .blockComment hbody

/-! ## The cover -/

theorem Covers.gap_append {offset : Nat} {piece rest : List Char} {ts : List Token}
    (hpiece : GapPiece rest piece) (h : Covers (offset + utf8Width piece) rest ts) :
    Covers offset (piece ++ rest) ts := by
  cases h with
  | done hgap => exact .done (.cons (by simpa using hpiece) hgap)
  | token hgap hstart htext hrest =>
    rw [← List.append_assoc]
    refine .token (.cons hpiece hgap) ?_ htext hrest
    rw [hstart, utf8Width_append, Nat.add_assoc]

/-- The tokens of a run cover what it reads. -/
theorem Scans.covers {ctx : Context} {offset : Nat} {cs : List Char} {ts : List Token}
    (h : Scans ctx offset cs ts) : Covers offset cs ts := by
  induction h with
  | done => exact .done .nil
  | @gap _ _ c cs more _ hl _ ih =>
    have hcs : c :: cs = (c :: cs.take more) ++ cs.drop more := by simp
    rw [hcs]
    exact ih.gap_append hl.gapPiece
  | @token _ offset c cs kind more t _ hl ht _ ih =>
    have htext : t.text.toList = c :: cs.take more := by rw [ht, String.toList_ofList]
    have hcs : c :: cs = [] ++ (t.text.toList ++ cs.drop more) := by simp [htext]
    have hstop : t.stop = offset + utf8Width (c :: cs.take more) := by
      rw [Token.stop, ht, utf8ByteSize_ofList]
    rw [hcs]
    refine .token .nil (by rw [ht]; rfl) (fun h => ?_) (hstop ▸ ih)
    simp [h] at htext

namespace Covers

variable {offset : Nat} {cs : List Char} {t : Token} {ts : List Token}

/-- Every token has a character, so it ends after it starts. -/
theorem start_lt_stop (h : Covers offset cs ts) (ht : t ∈ ts) : t.start < t.stop := by
  induction h with
  | done => cases ht
  | token _ _ htext _ ih =>
    rcases List.mem_cons.mp ht with rfl | ht
    · have := mt String.utf8ByteSize_eq_zero_iff.mp htext
      rw [Token.stop]
      omega
    · exact ih ht

/-- Every token lies after the place where the cover starts. -/
theorem offset_le_start (h : Covers offset cs ts) (ht : t ∈ ts) : offset ≤ t.start := by
  induction h with
  | done => cases ht
  | @token offset _ _ u _ _ hstart _ _ ih =>
    rcases List.mem_cons.mp ht with rfl | ht
    · omega
    · have := ih ht
      rw [Token.stop] at this
      omega

/-- Every token ends before the next one starts. -/
theorem pairwise_stop_le_start (h : Covers offset cs ts) :
    ts.Pairwise fun a b => a.stop ≤ b.start := by
  induction h with
  | done => exact .nil
  | token _ _ _ hrest ih => exact .cons (fun _ hu => hrest.offset_le_start hu) ih

/-- The text of every token stands in the source at its offset. -/
theorem standsAt {before : List Char} (h : Covers offset cs ts)
    (hbefore : utf8Width before = offset) (ht : t ∈ ts) : t.StandsAt (before ++ cs) := by
  induction h generalizing before with
  | done => cases ht
  | @token offset gap rest u ts _ hstart _ _ ih =>
    have hgap : utf8Width (before ++ gap) = u.start := by rw [utf8Width_append, hbefore, hstart]
    rcases List.mem_cons.mp ht with rfl | ht
    · exact ⟨before ++ gap, rest, by simp, hgap⟩
    · have hstop : utf8Width (before ++ gap ++ u.text.toList) = u.stop :=
        Token.utf8Width_append_text hgap
      simpa using ih hstop ht

/-- A cover starts with a gap and the first token. -/
theorem exists_cons (h : Covers offset cs (t :: ts)) :
    ∃ gap rest, cs = gap ++ (t.text.toList ++ rest) ∧ Gap (t.text.toList ++ rest) gap ∧
      t.start = offset + utf8Width gap ∧ Covers t.stop rest ts := by
  cases h with
  | token hgap hstart _ hrest => exact ⟨_, _, rfl, hgap, hstart, hrest⟩

/-- What is left of a source after its first tokens is covered by the others. -/
theorem exists_append (us : List Token) (h : Covers offset cs (us ++ ts)) :
    ∃ before rest, cs = before ++ rest ∧ Covers (offset + utf8Width before) rest ts := by
  induction us generalizing offset cs with
  | nil => exact ⟨[], cs, rfl, h⟩
  | cons u us ih =>
    obtain ⟨gap, rest, rfl, -, hstart, hrest⟩ := h.exists_cons
    obtain ⟨before, rest, rfl, hcovers⟩ := ih hrest
    refine ⟨gap ++ (u.text.toList ++ before), rest, by simp, ?_⟩
    have hoffset : offset + utf8Width (gap ++ (u.text.toList ++ before)) =
        u.stop + utf8Width before := by
      rw [utf8Width_append, utf8Width_append, utf8Width_toList, Token.stop, hstart]
      omega
    rwa [hoffset]

end Covers

/-- The characters that the lexer skips at the start of a source are its hashbang line. -/
theorem hashbang_hashbangLength (cs : List Char) :
    Hashbang (cs.drop (hashbangLength cs)) (cs.take (hashbangLength cs)) := by
  unfold hashbangLength
  split
  next rest =>
    rw [lineLength_cons, if_neg (by decide), lineLength_cons, if_neg (by decide)]
    exact .line (not_mem_take_lineLength rest) (endsLine_drop_lineLength rest)
  next hnot =>
    refine .none ?_
    rintro ⟨rest, rfl⟩
    exact hnot rest rfl

/-- An accepted source is its hashbang line and what its tokens cover. -/
theorem exists_covers_of_tokenize {src : String} {ts : List Token} (h : tokenize src = .ok ts) :
    ∃ line rest, src.toList = line ++ rest ∧ Hashbang rest line ∧
      Covers (utf8Width line) rest ts :=
  ⟨_, _, (List.take_append_drop _ _).symm, hashbang_hashbangLength _,
    (tokenize_eq_ok_iff.mp h).covers⟩

/-- Every token of an accepted source stands in it. -/
theorem standsAt_of_tokenize {src : String} {ts : List Token} {t : Token}
    (h : tokenize src = .ok ts) (ht : t ∈ ts) : t.StandsAt src.toList := by
  obtain ⟨line, rest, hsrc, -, hcovers⟩ := exists_covers_of_tokenize h
  rw [hsrc]
  exact hcovers.standsAt rfl ht

/-- The tokens are all of the source but for gaps. -/
structure IsCover (src : List Char) (ts : List Token) : Prop where
  /-- No token is empty. -/
  start_lt_stop : ∀ t ∈ ts, t.start < t.stop
  /-- Every token is a slice of whole characters. -/
  standsAt : ∀ t ∈ ts, t.StandsAt src
  /-- Every token ends inside the source. -/
  stop_le_width : ∀ t ∈ ts, t.stop ≤ utf8Width src
  /-- Tokens come in order and do not overlap. -/
  ordered : ts.Pairwise fun a b => a.stop ≤ b.start
  /-- What is in no token is a hashbang line at the very start, a blank or a comment. -/
  covers : ∃ line rest, src = line ++ rest ∧ Hashbang rest line ∧ Covers (utf8Width line) rest ts

/-- The tokens of an accepted source are all of it but for gaps: no character of code is skipped. -/
theorem tokenize_isCover {src : String} {ts : List Token} (h : tokenize src = .ok ts) :
    IsCover src.toList ts := by
  obtain ⟨line, rest, hsrc, hline, hcovers⟩ := exists_covers_of_tokenize h
  have hstands : ∀ t ∈ ts, t.StandsAt src.toList := by
    intro t ht
    rw [hsrc]
    exact hcovers.standsAt rfl ht
  exact {
    start_lt_stop := fun t ht => hcovers.start_lt_stop ht
    standsAt := hstands
    stop_le_width := fun t ht => (hstands t ht).isBoundary_stop.le_width
    ordered := hcovers.pairwise_stop_le_start
    covers := ⟨line, rest, hsrc, hline, hcovers⟩ }

/-- Blanks, comments and characters of two bytes around a string in a substitution. -/
theorem tokenize_isCover_nested :
    tokenize "#!é\n/*é*/a`x$\x7b'\\é'\x7d`//c" =
        .ok [⟨.ident, 11, "a"⟩, ⟨.templateHead, 12, "`x$\x7b"⟩, ⟨.str, 16, "'\\é'"⟩,
          ⟨.template, 21, "\x7d`"⟩] ∧
      IsCover "#!é\n/*é*/a`x$\x7b'\\é'\x7d`//c".toList
        [⟨.ident, 11, "a"⟩, ⟨.templateHead, 12, "`x$\x7b"⟩, ⟨.str, 16, "'\\é'"⟩,
          ⟨.template, 21, "\x7d`"⟩] := by
  have h : tokenize "#!é\n/*é*/a`x$\x7b'\\é'\x7d`//c" =
      .ok [⟨.ident, 11, "a"⟩, ⟨.templateHead, 12, "`x$\x7b"⟩, ⟨.str, 16, "'\\é'"⟩,
        ⟨.template, 21, "\x7d`"⟩] := by decide +kernel
  exact ⟨h, tokenize_isCover h⟩

end Lexer

end EdgeBundle
