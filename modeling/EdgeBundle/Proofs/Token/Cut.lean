import EdgeBundle.Proofs.Token.Locality

/-!
# Runs cut at a gap

A run can be cut where a token stops and a gap comes. What comes after the cut is read in some
context, and so it is after any other gap. Offsets play no part: the lexer looks at the classes and
texts of earlier tokens only.

## Main definitions

* `Token.unplaced`: a token without its place.
* `firstStart` and `lastStop`: places between which tokens lie.
* `Reads`: text that is read before a gap.

## Main statements

* `Scans.relocate`: a run from another place.
* `Scans.gap_append` and `Scans.of_gap_append`: a run with and without a gap before it.
* `Scans.exists_cut`: a run cut at a gap.
-/

namespace EdgeBundle

/-- The token without its place. -/
def Token.unplaced (t : Token) : Token :=
  { t with start := 0 }

namespace Lexer

/-! ## Runs from other places -/

namespace Context

/-- The context without the places of its tokens. -/
def unplaced (ctx : Context) : Context :=
  { ctx with tokens := ctx.tokens.map Token.unplaced }

theorem opensHead_unplaced (ctx : Context) : ctx.unplaced.opensHead = ctx.opensHead := by
  obtain ⟨tokens, braces, parens, closedHead⟩ := ctx
  rcases tokens with - | ⟨last, - | ⟨before, tokens⟩⟩ <;> rfl

theorem allowsRegex_unplaced (ctx : Context) : ctx.unplaced.allowsRegex = ctx.allowsRegex := by
  obtain ⟨tokens, braces, parens, closedHead⟩ := ctx
  cases tokens <;> rfl

/-- What a token changes does not hang on places. -/
theorem unplaced_push (ctx : Context) (t : Token) :
    (ctx.push t).unplaced = ctx.unplaced.push t.unplaced := by
  simp only [push, opensHead_unplaced]
  rfl

theorem unplaced_push_congr {ctx ctx' : Context} (h : ctx.unplaced = ctx'.unplaced) {t t' : Token}
    (ht : t.unplaced = t'.unplaced) : (ctx.push t).unplaced = (ctx'.push t').unplaced := by
  rw [unplaced_push, unplaced_push, h, ht]

end Context

/-- What is read next does not hang on places. -/
theorem LexemeAt.congr {ctx ctx' : Context} (h : ctx.unplaced = ctx'.unplaced) {c : Char}
    {cs : List Char} {l : Lexeme} (hl : LexemeAt ctx c cs l) : LexemeAt ctx' c cs l := by
  have hregex : ctx.allowsRegex = ctx'.allowsRegex := by
    rw [← ctx.allowsRegex_unplaced, ← ctx'.allowsRegex_unplaced, h]
  have hbraces : ctx.closesSubstitution = ctx'.closesSubstitution :=
    congrArg (fun ctx => ctx.braces.head? == some .substitution) h
  rw [← lexeme_eq_ok_iff, lexeme] at hl ⊢
  rwa [← hregex, ← hbraces]

/-- The same characters from another place on are the same tokens at other places. -/
theorem Scans.relocate {ctx ctx' : Context} {offset : Nat} {cs : List Char} {ts : List Token}
    (h : Scans ctx offset cs ts) (hctx : ctx.unplaced = ctx'.unplaced) (offset' : Nat) :
    ∃ moved, Scans ctx' offset' cs moved ∧
      moved.map Token.unplaced = ts.map Token.unplaced := by
  induction h generalizing ctx' offset' with
  | done => exact ⟨[], .done, rfl⟩
  | gap hl _ ih =>
    obtain ⟨moved, hrun, hmoved⟩ := ih hctx _
    exact ⟨moved, .gap (hl.congr hctx) hrun, hmoved⟩
  | @token ctx offset c cs kind more t ts hl ht _ ih =>
    let t' : Token := ⟨kind, offset', String.ofList (c :: cs.take more)⟩
    have hsame : t.unplaced = t'.unplaced := by rw [ht]; rfl
    obtain ⟨moved, hrun, hmoved⟩ := ih (Context.unplaced_push_congr hctx hsame) _
    refine ⟨t' :: moved, .token (hl.congr hctx) rfl hrun, ?_⟩
    rw [List.map_cons, List.map_cons, hmoved, hsame]

/-! ## Runs with a gap before them -/

theorem commentLength_append {body : List Char} (hbody : ¬ ['*', '/'] <:+: body ++ ['*']) (n : Nat)
    (rest : List Char) :
    commentLength n (body ++ ['*', '/'] ++ rest) = some (n + (body.length + 2)) := by
  induction body generalizing n with
  | nil => rfl
  | cons c body ih =>
    rw [List.cons_append, List.infix_cons_iff, not_or] at hbody
    rw [List.cons_append, List.cons_append, commentLength, ih hbody.2, List.length_cons]
    · congr 1
      omega
    -- the first asterisk and slash are those at the end
    · rintro tail rfl hslash
      apply hbody.1
      rw [List.cons_prefix_cons]
      cases body with
      | nil => cases hslash
      | cons d body =>
        rw [(List.cons.inj hslash).1]
        exact ⟨rfl, by simp⟩

theorem lineLength_append_of_endsLine {body rest : List Char} (hbody : '\n' ∉ body)
    (hrest : EndsLine rest) : lineLength (body ++ rest) = body.length := by
  induction body with
  | nil =>
    rcases hrest with rfl | hhead
    · rfl
    · cases rest with
      | nil => cases hhead
      | cons c rest => cases hhead; rfl
  | cons c body ih =>
    rw [List.mem_cons, not_or] at hbody
    rw [List.cons_append, lineLength_cons, if_neg (Ne.symm hbody.1), ih hbody.2, List.length_cons]

/-- A character with those that it takes, read without a token. -/
theorem Scans.skip {ctx : Context} {offset : Nat} {c : Char} {cs rest : List Char} {ts : List Token}
    (hl : LexemeAt ctx c (cs ++ rest) ⟨none, cs.length⟩)
    (h : Scans ctx (offset + utf8Width (c :: cs)) rest ts) :
    Scans ctx offset (c :: (cs ++ rest)) ts := by
  refine .gap hl ?_
  rwa [List.take_left, List.drop_left]

/-- A character with those that it takes, read as a token. -/
theorem Scans.read {ctx : Context} {offset : Nat} {c : Char} {cs rest : List Char}
    {kind : TokenKind} {ts : List Token} (hl : LexemeAt ctx c (cs ++ rest) ⟨some kind, cs.length⟩)
    (h : Scans (ctx.push ⟨kind, offset, String.ofList (c :: cs)⟩)
      (offset + utf8Width (c :: cs)) rest ts) :
    Scans ctx offset (c :: (cs ++ rest)) (⟨kind, offset, String.ofList (c :: cs)⟩ :: ts) := by
  refine .token hl (by rw [List.take_left]) ?_
  rwa [List.take_left, List.drop_left]

/-- A blank or comment is read without a token. -/
theorem Scans.gapPiece_append {ctx : Context} {offset : Nat} {piece rest : List Char}
    {ts : List Token} (hpiece : GapPiece rest piece)
    (h : Scans ctx (offset + utf8Width piece) rest ts) : Scans ctx offset (piece ++ rest) ts := by
  cases hpiece with
  | blank hc => exact .gap (.blank (mem_blanks_iff.mp hc)) h
  | @lineComment body hbody hrest =>
    have hmore : lineLength ('/' :: (body ++ rest)) = ('/' :: body).length := by
      rw [lineLength_cons, if_neg (by decide), lineLength_append_of_endsLine hbody hrest,
        List.length_cons]
    refine .skip ?_ h
    rw [← hmore]
    exact .lineComment rfl rfl
  | @blockComment body hbody =>
    have hmore : 1 + (body.length + 2) = ('*' :: (body ++ ['*', '/'])).length := by
      rw [List.length_cons, List.length_append, List.length_cons, List.length_singleton]
      omega
    refine .skip ?_ h
    rw [← hmore]
    exact .blockComment rfl rfl (commentLength_append hbody 1 rest)

/-- A gap is read without tokens. -/
theorem Scans.gap_append {ctx : Context} {offset : Nat} {gap rest : List Char}
    {ts : List Token} (hgap : Gap rest gap)
    (h : Scans ctx (offset + utf8Width gap) rest ts) : Scans ctx offset (gap ++ rest) ts := by
  induction hgap generalizing offset with
  | nil => exact h
  | cons hpiece _ ih =>
    rw [utf8Width_append, ← Nat.add_assoc] at h
    rw [List.append_assoc]
    exact .gapPiece_append hpiece (ih h)

/-! ## Places between tokens -/

/-- Where the first token starts, or `stop` if there is none. -/
def firstStart (ts : List Token) (stop : Nat) : Nat :=
  (ts.head?.map Token.start).getD stop

@[simp]
theorem firstStart_cons (t : Token) (ts : List Token) (stop : Nat) :
    firstStart (t :: ts) stop = t.start :=
  rfl

/-- Where the last token stops, or `start` if there is none. -/
def lastStop (ts : List Token) (start : Nat) : Nat :=
  (ts.getLast?.map Token.stop).getD start

theorem lastStop_cons (t : Token) (ts : List Token) (start : Nat) :
    lastStop (t :: ts) start = lastStop ts t.stop := by
  rw [lastStop, lastStop, List.getLast?_cons]
  cases ts.getLast? <;> rfl

theorem lastStop_of_ne_nil {ts : List Token} (hne : ts ≠ []) (start : Nat) :
    lastStop ts start = (ts.getLast hne).stop := by
  rw [lastStop, List.getLast?_eq_some_getLast hne]
  rfl

theorem lastStop_concat (ts : List Token) (t : Token) (start : Nat) :
    lastStop (ts ++ [t]) start = t.stop := by
  rw [lastStop, List.getLast?_concat]
  rfl

namespace Covers

variable {offset : Nat} {cs : List Char} {ts before after : List Token}

theorem offset_le_firstStart (h : Covers offset cs ts) :
    offset ≤ firstStart ts (offset + utf8Width cs) := by
  cases ts with
  | nil => exact Nat.le_add_right _ _
  | cons t ts => exact h.offset_le_start List.mem_cons_self

theorem offset_lt_lastStop (h : Covers offset cs (before ++ after)) (hne : before ≠ []) :
    offset < lastStop before offset := by
  have hlast : before.getLast hne ∈ before ++ after :=
    List.mem_append_left _ (List.getLast_mem hne)
  rw [lastStop_of_ne_nil hne]
  exact Nat.lt_of_le_of_lt (h.offset_le_start hlast) (h.start_lt_stop hlast)

theorem offset_le_lastStop (h : Covers offset cs (before ++ after)) :
    offset ≤ lastStop before offset := by
  by_cases hne : before = []
  · rw [hne]
    exact Nat.le_refl offset
  · exact (h.offset_lt_lastStop hne).le

end Covers

/-- A text that reaches as far as the first lexeme of a source starts with the lexeme. -/
theorem exists_append_of_reaches {c : Char} {cs pre rest : List Char} (more : Nat)
    (h : pre ++ rest = c :: cs) (hle : utf8Width (c :: cs.take more) ≤ utf8Width pre) :
    ∃ mid, pre = c :: cs.take more ++ mid ∧ cs.drop more = mid ++ rest := by
  have hsplit : (c :: cs.take more) ++ cs.drop more = pre ++ rest := by
    rw [h, List.cons_append, List.take_append_drop]
  exact exists_append_of_width_le hsplit hle

/-- Text before the first token is no part of its run. -/
theorem Scans.of_gap_append {ctx : Context} {offset : Nat} {gap post : List Char}
    {ts : List Token} (h : Scans ctx offset (gap ++ post) ts)
    (hstop : offset + utf8Width gap = firstStart ts (offset + utf8Width (gap ++ post))) :
    Scans ctx (offset + utf8Width gap) post ts := by
  generalize hcs : gap ++ post = cs at h hstop
  induction h generalizing gap with
  | done =>
    obtain ⟨rfl, rfl⟩ := List.append_eq_nil_iff.mp hcs
    exact .done
  | @gap ctx offset c cs more ts hl hrest ih =>
    have hwidth : utf8Width (c :: cs) =
        utf8Width (c :: cs.take more) + utf8Width (cs.drop more) := by
      rw [← utf8Width_append, List.cons_append, List.take_append_drop]
    rw [hwidth, ← Nat.add_assoc] at hstop
    -- the piece ends before the first token starts
    have hle : utf8Width (c :: cs.take more) ≤ utf8Width gap := by
      have := hrest.covers.offset_le_firstStart
      omega
    obtain ⟨mid, rfl, hdrop⟩ := exists_append_of_reaches more hcs hle
    rw [utf8Width_append, ← Nat.add_assoc] at hstop ⊢
    exact ih hdrop.symm hstop
  | @token ctx offset c cs kind more t ts hl ht hrest =>
    simp only [firstStart_cons, ht] at hstop
    obtain rfl : gap = [] := utf8Width_eq_zero_iff.mp (by omega)
    rw [List.nil_append] at hcs
    exact hcs ▸ .token hl ht hrest

/-- A gap that is not empty starts with a blank or a slash. -/
theorem Scans.startsGap {ctx : Context} {offset : Nat} {gap post : List Char} {ts : List Token}
    (h : Scans ctx offset (gap ++ post) ts) (hne : gap ≠ [])
    (hstop : offset + utf8Width gap = firstStart ts (offset + utf8Width (gap ++ post))) :
    StartsGap (gap ++ post) := by
  generalize hcs : gap ++ post = cs at h hstop
  have hpos : utf8Width gap ≠ 0 := mt utf8Width_eq_zero_iff.mp hne
  cases h with
  | done => exact absurd (List.append_eq_nil_iff.mp hcs).1 hne
  | @gap _ _ c _ _ _ hl =>
    cases hl with
    | blank hc => exact ⟨c, List.mem_cons_of_mem _ (mem_blanks_iff.mpr hc), rfl⟩
    | lineComment hc => exact ⟨c, hc ▸ List.mem_cons_self, rfl⟩
    | blockComment hc => exact ⟨c, hc ▸ List.mem_cons_self, rfl⟩
  -- a token would start where the gap does
  | @token _ _ c cs _ _ t ts _ ht =>
    simp only [firstStart_cons, ht] at hstop
    omega

/-! ## Runs cut at a gap -/

/-- The same where something is left after the text, in terms of the lexeme's own characters. -/
theorem exists_eq_cons_append {c : Char} {cs pre rest : List Char} (more : Nat)
    (h : pre ++ rest = c :: cs) (hle : utf8Width (c :: cs.take more) ≤ utf8Width pre)
    (hrest : rest ≠ []) :
    ∃ word mid, pre = c :: (word ++ mid) ∧ cs = word ++ (mid ++ rest) ∧ word.length = more := by
  obtain ⟨mid, rfl, hdrop⟩ := exists_append_of_reaches more h hle
  refine ⟨cs.take more, mid, rfl, by rw [← hdrop, List.take_append_drop], ?_⟩
  -- something is left after the lexeme
  have hlt : more < cs.length := by
    by_contra hge
    rw [List.drop_eq_nil_of_le (Nat.not_lt.mp hge)] at hdrop
    exact hrest (List.append_eq_nil_iff.mp hdrop.symm).2
  rw [List.length_take, Nat.min_eq_left hlt.le]

/-- Before a blank the text is read as the tokens, and what comes after it in the other context. -/
def Reads (ctx ctx' : Context) (offset : Nat) (pre : List Char) (before : List Token) : Prop :=
  ∀ rest ts, StartsBlank rest → Scans ctx' (offset + utf8Width pre) rest ts →
    Scans ctx offset (pre ++ rest) (before ++ ts)

namespace Reads

variable {ctx ctx' : Context} {offset : Nat} {c : Char} {word mid rest : List Char}
  {before : List Token}

theorem nil : Reads ctx ctx offset [] [] :=
  fun _ _ _ h => h

theorem skip (hl : LexemeAt ctx c (word ++ (mid ++ rest)) ⟨none, word.length⟩)
    (hmid : mid ≠ []) (hgap : StartsGap rest)
    (h : Reads ctx ctx' (offset + utf8Width (c :: word)) mid before) :
    Reads ctx ctx' offset (c :: word ++ mid) before := by
  intro rest' ts hblank hrun
  have hlength : word.length < (word ++ mid).length := by
    have := List.length_pos_iff.mpr hmid
    rw [List.length_append]
    omega
  rw [← List.append_assoc] at hl
  have hl' := hl.exchange hlength.le (fun _ => hlength) hgap hblank
  rw [List.append_assoc] at hl'
  rw [utf8Width_append, ← Nat.add_assoc] at hrun
  rw [List.append_assoc]
  exact .skip hl' (h rest' ts hblank hrun)

theorem read {kind : TokenKind}
    (hl : LexemeAt ctx c (word ++ (mid ++ rest)) ⟨some kind, word.length⟩) (hgap : StartsGap rest)
    (h : Reads (ctx.push ⟨kind, offset, String.ofList (c :: word)⟩) ctx'
      (offset + utf8Width (c :: word)) mid before) :
    Reads ctx ctx' offset (c :: word ++ mid)
      (⟨kind, offset, String.ofList (c :: word)⟩ :: before) := by
  intro rest' ts hblank hrun
  rw [← List.append_assoc] at hl
  have hl' := hl.exchange (by simp) nofun hgap hblank
  rw [List.append_assoc] at hl'
  rw [utf8Width_append, ← Nat.add_assoc] at hrun
  rw [List.append_assoc]
  exact .read hl' (h rest' ts hblank hrun)

end Reads

/-- Where no token has been read yet nothing has to be cut. -/
theorem Scans.exists_cut_nil {ctx : Context} {offset : Nat} {pre rest : List Char}
    {after : List Token} (h : Scans ctx offset (pre ++ rest) after)
    (hpre : offset + utf8Width pre = offset) :
    ∃ ctx', Scans ctx' (offset + utf8Width pre) rest after ∧
      (StartsGap rest → Reads ctx ctx' offset pre []) := by
  obtain rfl : pre = [] := utf8Width_eq_zero_iff.mp (Nat.add_eq_left.mp hpre)
  exact ⟨ctx, h, fun _ => .nil⟩

/-- A run can be cut where a token stops. If a gap comes there, then another gap may come there. -/
theorem Scans.exists_cut {ctx : Context} {offset : Nat} {pre rest : List Char}
    {before after : List Token} (h : Scans ctx offset (pre ++ rest) (before ++ after))
    (hpre : offset + utf8Width pre = lastStop before offset) (hne : rest ≠ []) :
    ∃ ctx', Scans ctx' (offset + utf8Width pre) rest after ∧
      (StartsGap rest → Reads ctx ctx' offset pre before) := by
  generalize hcs : pre ++ rest = cs at h
  generalize hts : before ++ after = ts at h
  induction h generalizing pre before with
  | done => exact absurd (List.append_eq_nil_iff.mp hcs).2 hne
  | @gap ctx offset c cs more ts hl hrun ih =>
    rcases before with - | ⟨t, before⟩
    · obtain rfl : after = ts := hts
      exact Scans.exists_cut_nil (hcs ▸ .gap hl hrun) hpre
    -- the piece ends before the tokens do
    have hlt := (hts ▸ hrun.covers).offset_lt_lastStop (List.cons_ne_nil t before)
    rw [lastStop_cons] at hlt hpre
    obtain ⟨word, mid, rfl, rfl, rfl⟩ := exists_eq_cons_append more hcs (by omega) hne
    rw [List.take_left, List.drop_left] at hrun ih
    rw [List.take_left] at hlt
    rw [← List.cons_append, utf8Width_append, ← Nat.add_assoc] at hpre ⊢
    obtain ⟨ctx', hrest, hreads⟩ := ih (by rw [lastStop_cons]; exact hpre) rfl hts
    refine ⟨ctx', hrest, fun hgap => .skip hl ?_ hgap (hreads hgap)⟩
    rintro rfl
    rw [utf8Width_nil] at hpre
    omega
  | @token ctx offset c cs kind more t ts hl ht hrun ih =>
    rcases before with - | ⟨b, before⟩
    · obtain rfl : after = t :: ts := hts
      exact Scans.exists_cut_nil (hcs ▸ .token hl ht hrun) hpre
    obtain ⟨rfl, rfl⟩ := List.cons.inj hts
    have hstop : b.stop = offset + utf8Width (c :: cs.take more) := by
      rw [Token.stop, ht, utf8ByteSize_ofList]
    rw [lastStop_cons, hstop] at hpre
    have hle := hrun.covers.offset_le_lastStop
    obtain ⟨word, mid, rfl, rfl, rfl⟩ := exists_eq_cons_append more hcs (by omega) hne
    rw [List.take_left] at ht
    rw [List.take_left, List.drop_left] at hrun ih
    rw [List.take_left] at hpre
    rw [← List.cons_append, utf8Width_append, ← Nat.add_assoc] at hpre ⊢
    obtain ⟨ctx', hrest, hreads⟩ := ih hpre rfl rfl
    subst ht
    exact ⟨ctx', hrest, fun hgap => .read hl hgap (hreads hgap)⟩

end Lexer

end EdgeBundle
