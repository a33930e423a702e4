import EdgeBundle.Proofs.Token.Cut

/-!
# Layout between tokens

What stands between two tokens may be replaced by other blanks and comments: the tokens before it
are read as before, since each stops where it did, and those after it are read as before but for
their places.

## Main definitions

* `IsGap`: the text between two neighbouring tokens.
* `Layout`: blanks and closed comments.

## Main statements

* `IsGap.exists_cut`: a source cut at a gap.
* `tokenize_layout`: other layout in a gap leaves the classes and texts of all tokens.
-/

namespace EdgeBundle.Lexer

/-! ## Sources cut at a gap -/

theorem hashbangLength_eq (cs : List Char) :
    hashbangLength cs = if ['#', '!'].isPrefixOf cs then lineLength cs else 0 := by
  unfold hashbangLength
  split
  next => rfl
  next hnot =>
    rw [if_neg]
    intro hstarts
    obtain ⟨rest, rfl⟩ := List.isPrefixOf_iff_prefix.mp hstarts
    exact hnot rest rfl

theorem hashbangLength_le (cs : List Char) : hashbangLength cs ≤ cs.length := by
  rw [hashbangLength_eq]
  split
  next => exact (List.takeWhile_sublist _).length_le
  next => exact Nat.zero_le _

/-- A hashbang line does not start in a gap. -/
theorem isPrefixOf_hashbang_append (pre : List Char) {rest : List Char} (hrest : StartsGap rest) :
    ['#', '!'].isPrefixOf (pre ++ rest) = ['#', '!'].isPrefixOf pre := by
  have hall : ['#', '!'].all (· ∉ '/' :: blanks) := by decide
  exact isPrefixOf_append_of_startsGap
    (fun d hd => of_decide_eq_true (List.all_eq_true.mp hall d hd)) hrest

/-- The hashbang line stays the same before another gap. -/
theorem hashbangLength_append {pre rest rest' : List Char}
    (h : hashbangLength (pre ++ rest) < pre.length) (hgap : StartsGap rest)
    (hblank : StartsBlank rest') :
    hashbangLength (pre ++ rest') = hashbangLength (pre ++ rest) := by
  rw [hashbangLength_eq (pre ++ rest), isPrefixOf_hashbang_append pre hgap] at h ⊢
  rw [hashbangLength_eq, isPrefixOf_hashbang_append pre hblank.startsGap]
  split
  next hline =>
    rw [if_pos hline] at h
    exact lineLength_append h rest'
  next => rfl

/-- The text `gap` stands between two neighbouring tokens, or it is all that comes after the last
token or before the first one, a hashbang line included. -/
structure IsGap (before after : List Token) (pre gap post : String) : Prop where
  /-- There is something in the gap. -/
  ne_empty : gap ≠ ""
  /-- The gap starts where the token before it stops. -/
  start_eq : pre.utf8ByteSize = lastStop before 0
  /-- The gap stops where the token after it starts. -/
  stop_eq : pre.utf8ByteSize + gap.utf8ByteSize =
    firstStart after (pre ++ gap ++ post).utf8ByteSize

section Sources

variable {before after : List Token} {pre gap post : String}

/-- An accepted source is its hashbang line and a run. -/
theorem tokenize_eq_ok_iff_exists_line {src : String} {ts : List Token} :
    tokenize src = .ok ts ↔ ∃ line tail, src.toList = line ++ tail ∧
      line.length = hashbangLength src.toList ∧ Scans {} (utf8Width line) tail ts := by
  rw [tokenize_eq_ok_iff]
  constructor
  · intro h
    refine ⟨_, _, (List.take_append_drop (hashbangLength src.toList) _).symm, ?_, h⟩
    rw [List.length_take, Nat.min_eq_left (hashbangLength_le _)]
  · rintro ⟨line, tail, hsrc, hline, h⟩
    rw [← hline, hsrc, List.take_left, List.drop_left]
    exact h

/-- The first gap takes in the hashbang line. -/
theorem IsGap.exists_cut_first (hgap : IsGap [] after pre gap post)
    (h : tokenize (pre ++ gap ++ post) = .ok after) :
    ∃ ctx, Scans ctx (pre.utf8ByteSize + gap.utf8ByteSize) post.toList after ∧
      ∀ (rest : String) ts, StartsBlank rest.toList → Scans ctx pre.utf8ByteSize rest.toList ts →
        tokenize (pre ++ rest) = .ok ts := by
  obtain rfl : pre = "" := String.utf8ByteSize_eq_zero_iff.mp hgap.start_eq
  have hstop := hgap.stop_eq
  obtain ⟨line, tail, hsplit, -, hrun⟩ := tokenize_eq_ok_iff_exists_line.mp h
  rw [String.utf8ByteSize_empty, Nat.zero_add, ← utf8Width_toList, ← utf8Width_toList] at hstop
  rw [String.empty_append, String.toList_append] at hsplit hstop
  rw [String.utf8ByteSize_empty, Nat.zero_add, ← utf8Width_toList]
  -- the hashbang line ends before the first token starts
  have hle := hrun.covers.offset_le_firstStart
  rw [← utf8Width_append, ← hsplit, ← hstop] at hle
  obtain ⟨mid, hmid, rfl⟩ := exists_append_of_width_le hsplit.symm hle
  rw [hmid, utf8Width_append, List.append_assoc, utf8Width_append line] at hstop
  refine ⟨{}, ?_, fun rest ts hblank hrun => ?_⟩
  · rw [hmid, utf8Width_append]
    exact hrun.of_gap_append hstop
  -- a text that starts with a blank has no hashbang line
  · have hnone : hashbangLength rest.toList = 0 := by
      have hstarts := isPrefixOf_hashbang_append [] hblank.startsGap
      rw [List.nil_append] at hstarts
      rw [hashbangLength_eq, hstarts]
      rfl
    rw [String.empty_append]
    exact tokenize_eq_ok_iff_exists_line.mpr ⟨[], _, rfl, hnone.symm, hrun⟩

/-- A later gap leaves the hashbang line as it is. -/
theorem IsGap.exists_cut_later (hgap : IsGap before after pre gap post) (hbefore : before ≠ [])
    (h : tokenize (pre ++ gap ++ post) = .ok (before ++ after)) :
    ∃ ctx, Scans ctx (pre.utf8ByteSize + gap.utf8ByteSize) post.toList after ∧
      ∀ (rest : String) ts, StartsBlank rest.toList → Scans ctx pre.utf8ByteSize rest.toList ts →
        tokenize (pre ++ rest) = .ok (before ++ ts) := by
  have hne : gap.toList ≠ [] := mt String.toList_eq_nil_iff.mp hgap.ne_empty
  have hstart := hgap.start_eq
  have hstop := hgap.stop_eq
  obtain ⟨line, tail, hsplit, hline, hrun⟩ := tokenize_eq_ok_iff_exists_line.mp h
  simp only [← utf8Width_toList, String.toList_append, List.append_assoc]
    at hsplit hline hstart hstop ⊢
  -- the hashbang line ends before the last of the tokens does
  have hlt := hrun.covers.offset_lt_lastStop hbefore
  rw [lastStop_of_ne_nil hbefore] at hlt hstart
  rw [← hstart] at hlt
  obtain ⟨mid, hmid, rfl⟩ := exists_append_of_width_le hsplit.symm hlt.le
  have hmidne : mid ≠ [] := by
    rintro rfl
    rw [hmid, List.append_nil] at hlt
    exact Nat.lt_irrefl _ hlt
  have hlength : line.length < pre.toList.length := by
    have := List.length_pos_iff.mpr hmidne
    rw [hmid, List.length_append]
    omega
  have hpre : utf8Width line + utf8Width mid = utf8Width pre.toList := by
    rw [hmid, utf8Width_append]
  -- the cut is where the last of the tokens stops
  obtain ⟨ctx, hrest, hreads⟩ := hrun.exists_cut
    (by rw [lastStop_of_ne_nil hbefore, hpre, hstart]) (List.append_ne_nil_of_left_ne_nil hne _)
  rw [hpre] at hrest
  rw [utf8Width_append] at hstop
  have hstarts := hrest.startsGap hne hstop
  refine ⟨ctx, hrest.of_gap_append hstop, fun rest ts hblank hrun' => ?_⟩
  rw [tokenize_eq_ok_iff_exists_line, String.toList_append]
  refine ⟨line, mid ++ rest.toList, by rw [hmid, List.append_assoc], ?_, ?_⟩
  · rw [hashbangLength_append (hline ▸ hlength) hstarts hblank, hline]
  · exact hreads hstarts _ ts hblank (hpre ▸ hrun')

/-- A source can be cut at a gap: what comes after the gap is read in some context, and any other
text that starts with a blank may come before it. -/
theorem IsGap.exists_cut (hgap : IsGap before after pre gap post)
    (h : tokenize (pre ++ gap ++ post) = .ok (before ++ after)) :
    ∃ ctx, Scans ctx (pre.utf8ByteSize + gap.utf8ByteSize) post.toList after ∧
      ∀ (rest : String) ts, StartsBlank rest.toList → Scans ctx pre.utf8ByteSize rest.toList ts →
        tokenize (pre ++ rest) = .ok (before ++ ts) := by
  by_cases hbefore : before = []
  · subst hbefore
    exact hgap.exists_cut_first h
  · exact hgap.exists_cut_later hbefore h

end Sources

/-! ## Other layout -/

/-- Blanks and closed comments. -/
inductive Layout : List Char → Prop
  | nil : Layout []
  | blank {c : Char} {layout : List Char} (hc : c ∈ blanks) (hrest : Layout layout) :
      Layout (c :: layout)
  | lineComment {body layout : List Char} (hbody : '\n' ∉ body) (hrest : Layout layout) :
      Layout ('/' :: '/' :: body ++ '\n' :: layout)
  -- the first `*/` closes the comment
  | blockComment {body layout : List Char} (hbody : ¬ ['*', '/'] <:+: body ++ ['*'])
      (hrest : Layout layout) : Layout ('/' :: '*' :: (body ++ ['*', '/']) ++ layout)

/-- Layout is a gap before any text. -/
theorem Layout.gap {layout : List Char} (h : Layout layout) (rest : List Char) :
    Gap rest layout := by
  induction h with
  | nil => exact .nil
  | blank hc _ ih => exact .cons (.blank hc) ih
  | lineComment hbody _ ih =>
    exact .cons (.lineComment hbody (.inr rfl)) (.cons (.blank (by decide)) ih)
  | blockComment hbody _ ih => exact .cons (.blockComment hbody) ih

/-- Other layout in a gap that starts with a blank leaves the classes and texts of all tokens, and
those before the gap stay where they are. -/
theorem tokenize_layout {before after : List Token} {pre gap post layout : String}
    (h : tokenize (pre ++ gap ++ post) = .ok (before ++ after))
    (hgap : IsGap before after pre gap post) (hlayout : Layout layout.toList)
    (hblank : StartsBlank layout.toList) :
    ∃ moved, tokenize (pre ++ layout ++ post) = .ok (before ++ moved) ∧
      moved.map Token.unplaced = after.map Token.unplaced := by
  obtain ⟨ctx, hafter, hback⟩ := hgap.exists_cut h
  -- the same lexemes are read at other places
  obtain ⟨moved, hrun, hmoved⟩ :=
    hafter.relocate rfl (pre.utf8ByteSize + layout.utf8ByteSize)
  refine ⟨moved, ?_, hmoved⟩
  rw [String.append_assoc]
  refine hback (layout ++ post) moved ?_ ?_
  · obtain ⟨d, hd, hhead⟩ := hblank
    exact ⟨d, hd, by rw [String.toList_append, List.head?_append, hhead]; rfl⟩
  · rw [String.toList_append]
    exact .gap_append (hlayout.gap _) (by rwa [utf8Width_toList])

/-- Between the start of a substitution and a regular expression, after a hashbang line. -/
theorem tokenize_layout_substitution :
    ∃ (pre gap post layout : String) (before after moved : List Token),
      pre ++ gap ++ post = "#!sh\nf(`a$\x7b/*\x7d*//b/g\x7d`)" ∧
      pre ++ layout ++ post = "#!sh\nf(`a$\x7b\n//`\n\t/*/*//b/g\x7d`)" ∧
      tokenize (pre ++ gap ++ post) = .ok (before ++ after) ∧
      IsGap before after pre gap post ∧ Layout layout.toList ∧ StartsBlank layout.toList ∧
      tokenize (pre ++ layout ++ post) = .ok (before ++ moved) ∧
      moved.map Token.unplaced = after.map Token.unplaced := by
  have htokens : tokenize ("#!sh\nf(`a$\x7b" ++ "/*\x7d*/" ++ "/b/g\x7d`)") =
      .ok ([⟨.ident, 5, "f"⟩, ⟨.punct, 6, "("⟩, ⟨.templateHead, 7, "`a$\x7b"⟩] ++
        [⟨.regex, 16, "/b/g"⟩, ⟨.template, 20, "\x7d`"⟩, ⟨.punct, 22, ")"⟩]) := by
    decide +kernel
  have hgap : IsGap [⟨.ident, 5, "f"⟩, ⟨.punct, 6, "("⟩, ⟨.templateHead, 7, "`a$\x7b"⟩]
      [⟨.regex, 16, "/b/g"⟩, ⟨.template, 20, "\x7d`"⟩, ⟨.punct, 22, ")"⟩]
      "#!sh\nf(`a$\x7b" "/*\x7d*/" "/b/g\x7d`)" := by
    constructor <;> decide
  have hlayout : Layout "\n//`\n\t/*/*/".toList :=
    .blank (by decide) (@Layout.lineComment ['`'] _ (by decide) (.blank (by decide)
      (@Layout.blockComment ['/'] _ (by decide) .nil)))
  have hblank : StartsBlank "\n//`\n\t/*/*/".toList := ⟨'\n', by decide, rfl⟩
  obtain ⟨moved, hmoved, hsame⟩ := tokenize_layout htokens hgap hlayout hblank
  exact ⟨_, _, _, _, _, _, moved, by decide, by decide, htokens, hgap, hlayout, hblank, hmoved,
    hsame⟩

end EdgeBundle.Lexer
