import EdgeBundle.Proofs.Token.Frame
import EdgeBundle.Proofs.Token.Semicolon

/-!
# Sources with text around them

A source that is put between other text is read as it was on its own, if a line ends after it: no
word, punctuator or comment goes on into the text after it. What stands before it may leave brackets
open, but the source must find a context that is like that at the start of a source. No bracket has
to be closed: a bracket that the source closes without having opened it is the same to the lexer as
one that is not there.

## Main definitions

* `PartedByLine`: a line ends between two texts.

## Main statements

* `LexemeAt.append_line` and `Scans.append_line`: a lexeme and a run before other text.
* `exists_enclosed`: a source with text around it.
-/

namespace EdgeBundle.Lexer

/-! ## Texts that are parted by a line break -/

/-- A line ends between the texts: the one before ends with a line break, or the one after is empty
or starts with one. -/
def PartedByLine (cs rest : List Char) : Prop :=
  cs ≠ [] → EndsLine rest ∨ cs.getLast? = some '\n'

theorem EndsLine.startsBlank {d : Char} {rest : List Char} (h : EndsLine (d :: rest)) :
    StartsBlank (d :: rest) := by
  rcases h with h | h
  · cases h
  · cases h
    exact ⟨'\n', by decide, rfl⟩

theorem EndsLine.head?_ne {d : Char} {rest : List Char} (h : EndsLine rest) (hd : d ≠ '\n') :
    rest.head? ≠ some d := by
  intro hhead
  rcases h with rfl | hline
  · cases hhead
  · rw [hline] at hhead
    exact hd (Option.some.inj hhead).symm

/-- No word goes on behind the end of a line. -/
theorem EndsLine.endsWord {rest : List Char} (h : EndsLine rest) : EndsWord rest := by
  cases rest with
  | nil => simp [EndsWord]
  | cons d rest => exact h.startsBlank.startsGap.endsWord

/-- No punctuator goes on behind the end of a line. -/
theorem EndsLine.endsPunct {rest : List Char} (h : EndsLine rest) : EndsPunct rest := by
  cases rest with
  | nil => simp [EndsPunct]
  | cons d rest => exact h.startsBlank.startsGap.endsPunct

/-- A line goes on up to the end of a line. -/
theorem EndsLine.lineLength_append {rest : List Char} (h : EndsLine rest) (cs : List Char) :
    lineLength (cs ++ rest) = lineLength cs := by
  have hrest : lineLength rest = 0 := by
    cases rest with
    | nil => rfl
    | cons d rest =>
      rcases h with h | h
      · cases h
      · cases h
        rfl
  unfold lineLength at hrest ⊢
  rw [List.takeWhile_append]
  split
  next hall => rw [List.length_append, hrest, Nat.add_zero, hall]
  next => rfl

namespace PartedByLine

variable {c : Char} {cs rest : List Char}

/-- The end of a text is parted by the same line break. -/
theorem of_append {pre : List Char} (h : PartedByLine (pre ++ cs) rest) : PartedByLine cs rest := by
  intro hne
  refine (h (List.append_ne_nil_of_right_ne_nil pre hne)).imp_right fun hlast => ?_
  rwa [List.getLast?_append_of_ne_nil pre hne] at hlast

/-- What is left of the text before is parted by the same line break. -/
theorem drop (h : PartedByLine (c :: cs) rest) (n : Nat) : PartedByLine (cs.drop n) rest := by
  rw [← List.take_append_drop n cs, ← List.cons_append] at h
  exact h.of_append

/-- Where the line ends. -/
theorem exists_split (h : PartedByLine cs rest) (hne : cs ≠ []) :
    ∃ word gap, cs = word ++ gap ∧ EndsLine gap ∧ EndsLine (gap ++ rest) := by
  rcases h hne with hrest | hlast
  · exact ⟨cs, [], (List.append_nil cs).symm, .inl rfl, hrest⟩
  · obtain ⟨word, hcs⟩ := List.getLast?_eq_some_iff.mp hlast
    exact ⟨word, ['\n'], hcs, .inr rfl, .inr rfl⟩

/-- The same behind a character that is no line break. -/
theorem exists_split_of_ne (h : PartedByLine (c :: cs) rest) (hc : c ≠ '\n') :
    ∃ word gap, cs = word ++ gap ∧ EndsLine gap ∧ EndsLine (gap ++ rest) := by
  obtain ⟨word, gap, hcs, hgap, hrest⟩ := h.exists_split (List.cons_ne_nil c cs)
  cases word with
  | cons d word => exact ⟨word, gap, (List.cons.inj hcs).2, hgap, hrest⟩
  | nil =>
    -- the line break would be the character
    rw [List.nil_append] at hcs
    subst hcs
    rcases hgap with hgap | hgap
    · cases hgap
    · exact absurd (Option.some.inj hgap) hc

/-- A comment on the line ends with it. -/
theorem lineLength_append (h : PartedByLine (c :: cs) rest) (hc : c ≠ '\n') :
    lineLength (cs ++ rest) = lineLength cs := by
  obtain ⟨word, gap, rfl, hgap, hrest⟩ := h.exists_split_of_ne hc
  rw [List.append_assoc, hrest.lineLength_append, hgap.lineLength_append]

/-- An identifier ends with the line. -/
theorem identLength_append (h : PartedByLine (c :: cs) rest) (hc : c ≠ '\n') :
    identLength (cs ++ rest) = identLength cs := by
  obtain ⟨word, gap, rfl, hgap, hrest⟩ := h.exists_split_of_ne hc
  rw [List.append_assoc, hrest.endsWord.endsName.identLength_append,
    hgap.endsWord.endsName.identLength_append]

/-- A number ends with the line. -/
theorem numberLength_append (h : PartedByLine (c :: cs) rest) (hc : c ≠ '\n') (hex : Bool)
    (n : Nat) : numberLength hex c n (cs ++ rest) = numberLength hex c n cs := by
  obtain ⟨word, gap, rfl, hgap, hrest⟩ := h.exists_split_of_ne hc
  rw [List.append_assoc, Lexer.numberLength_append hrest.endsWord,
    Lexer.numberLength_append hgap.endsWord]

/-- A punctuator ends with the line. -/
theorem punctLength_append (h : PartedByLine (c :: cs) rest) (hc : c ≠ '\n') :
    punctLength (c :: (cs ++ rest)) = punctLength (c :: cs) := by
  obtain ⟨word, gap, rfl, hgap, hrest⟩ := h.exists_split_of_ne hc
  rw [List.append_assoc, Lexer.punctLength_append hrest.endsPunct,
    Lexer.punctLength_append hgap.endsPunct]

/-- The next character on the line is the same, if it does not end the line. -/
theorem head?_append_iff (h : PartedByLine (c :: cs) rest) (hc : c ≠ '\n') {d : Char}
    (hd : d ≠ '\n') : (cs ++ rest).head? = some d ↔ cs.head? = some d := by
  obtain ⟨word, gap, rfl, hgap, hrest⟩ := h.exists_split_of_ne hc
  cases word with
  | cons e word => rfl
  | nil => exact iff_of_false (hrest.head?_ne hd) (hgap.head?_ne hd)

/-- A digit comes next on the line exactly if it did. -/
theorem any_isDigit_append (h : PartedByLine (c :: cs) rest) (hc : c ≠ '\n') :
    (cs ++ rest).head?.any Char.isDigit = cs.head?.any Char.isDigit := by
  obtain ⟨word, gap, rfl, hgap, hrest⟩ := h.exists_split_of_ne hc
  rw [List.append_assoc, hrest.endsWord.any_isDigit_append, hgap.endsWord.any_isDigit_append]

end PartedByLine

/-! ## Lexemes and runs before a line break -/

section Append

variable {ctx : Context} {c : Char} {cs rest : List Char}

/-- What starts a punctuator starts one before text that is parted from it. -/
theorem StartsPunct.append_line (hstarts : StartsPunct ctx c cs)
    (hparted : PartedByLine (c :: cs) rest) (hc : c ≠ '\n') : StartsPunct ctx c (cs ++ rest) := by
  refine hstarts.of_head (fun _ d hd => ?_) fun hdigit => ?_
  · have hne : d ≠ '\n' := by
      rintro rfl
      exact absurd hd (by decide)
    exact (hparted.head?_append_iff hc hne).mp
  · rwa [hparted.any_isDigit_append hc] at hdigit

/-- A lexeme does not reach past its text. -/
theorem LexemeAt.le_length {kind : Option TokenKind} {more : Nat}
    (hl : LexemeAt ctx c cs ⟨kind, more⟩) : more ≤ cs.length := by
  -- a lexeme with an end has its end in the text
  cases hl with
  | blank hc => exact Nat.zero_le _
  | lineComment hc hd => exact (List.takeWhile_sublist _).length_le
  | blockComment hc hd hn =>
    obtain ⟨d, cs, rfl⟩ := List.ne_nil_iff_exists_cons.mp
      (show cs ≠ [] by rintro rfl; cases hd)
    obtain ⟨body, tail, hbody, rfl, -⟩ := commentLength_eq_some hn
    rw [List.tail_cons] at hbody
    rw [hbody]
    simp only [List.length_cons, List.length_append, List.length_nil]
    omega
  | str hc hn =>
    have hle := stringLength_le hn
    omega
  | template hc hn =>
    obtain ⟨body, d, tail, rfl, rfl, -⟩ := templateLength_eq_some hn
    simp only [List.length_cons, List.length_append]
    omega
  | regex hc hd hctx hn =>
    obtain ⟨body, tail, rfl, rfl, -⟩ := regexLength_eq_some hn
    have := identLength_le tail
    rw [drop_append_cons, List.length_append, List.length_cons]
    omega
  | number hc =>
    have hle := numberLength_le (c = '0' && (cs.head? == some 'x' || cs.head? == some 'X')) c 0 cs
    omega
  | ident hc => exact identLength_le cs
  | punct hc => exact punctLength_le c cs

/-- A lexeme does not reach into text that is parted from it by a line break. -/
theorem LexemeAt.append_line {kind : Option TokenKind} {more : Nat}
    (hl : LexemeAt ctx c cs ⟨kind, more⟩) (hparted : PartedByLine (c :: cs) rest) :
    LexemeAt ctx c (cs ++ rest) ⟨kind, more⟩ := by
  by_cases hblank : isBlank c = true
  · cases hl.unique (.blank hblank)
    exact .blank hblank
  have hne : c ≠ '\n' := by
    rintro rfl
    exact hblank rfl
  have hmore := hl.le_length
  rw [← List.append_nil cs] at hl
  refine hl.exchange_rest hmore ?line ?word ?number ?punct
  case line =>
    rintro - rfl
    rw [List.append_nil, hparted.lineLength_append hne]
  case word =>
    intro body d word hword hd _
    rw [List.append_nil]
    exact (hword ▸ hparted).of_append.identLength_append hd
  case number =>
    intro hex _
    rw [List.append_nil, hparted.numberLength_append hne]
  case punct =>
    intro hstarts _
    rw [List.append_nil] at hstarts ⊢
    exact ⟨hstarts.append_line hparted hne, hparted.punctLength_append hne⟩

/-- The width of a text is that of its first lexeme and of what follows. -/
theorem utf8Width_take_drop (c : Char) (cs : List Char) (more : Nat) :
    utf8Width (c :: cs.take more) + utf8Width (cs.drop more) = utf8Width (c :: cs) := by
  rw [← utf8Width_append, List.cons_append, List.take_append_drop]

/-- A run goes on in text that is parted from it by a line break. -/
theorem Scans.append_line {offset : Nat} {ts us : List Token} (h : Scans ctx offset cs ts)
    (hparted : PartedByLine cs rest)
    (hrest : Scans (ctx.after ts) (offset + utf8Width cs) rest us) :
    Scans ctx offset (cs ++ rest) (ts ++ us) := by
  -- induction on the run, with the width of what has been read moved to the offset of the rest
  induction h with
  | done => exact hrest
  | gap hl _ ih =>
    have hle := hl.le_length
    rw [← utf8Width_take_drop, ← Nat.add_assoc] at hrest
    rw [List.cons_append]
    refine .gap (hl.append_line hparted) ?_
    rw [List.take_append_of_le_length hle, List.drop_append_of_le_length hle]
    exact ih (hparted.drop _) hrest
  | token hl ht _ ih =>
    have hle := hl.le_length
    rw [← utf8Width_take_drop, ← Nat.add_assoc] at hrest
    rw [List.cons_append, List.cons_append]
    refine .token (hl.append_line hparted) ?_ ?_
    · rw [List.take_append_of_le_length hle]
      exact ht
    · rw [List.take_append_of_le_length hle, List.drop_append_of_le_length hle]
      exact ih (hparted.drop _) hrest

end Append

/-! ## Sources with text around them -/

/-- A source without open template literals does not leave a substitution for a brace to end. -/
theorem closesSubstitution_after {src : String} {ts : List Token} (h : tokenize src = .ok ts)
    (hclosed : openTemplates ts = 0) : (Context.after {} ts).closesSubstitution = false := by
  have hnone := openTemplates_eq_openSubstitutions h (List.prefix_refl ts)
  rw [hclosed, eq_comm, Int.natCast_eq_zero, Context.openSubstitutions, List.count_eq_zero] at hnone
  refine Bool.eq_false_iff.mpr fun hcloses => hnone ?_
  obtain ⟨outer, hbraces⟩ := Context.closesSubstitution_iff.mp hcloses
  rw [hbraces]
  exact List.mem_cons_self

/-- A source without a hashbang line has the same tokens where other text stands around it, if it
finds a context that is like that at the start of a source and a line ends after it. After it a
brace ends no substitution, if the source leaves no template literal open. -/
theorem exists_enclosed {body : List Char} {ts : List Token}
    (h : tokenize (String.ofList body) = .ok ts) (hbang : ¬ ['#', '!'] <+: body)
    (hclosed : openTemplates ts = 0) {ctx : Context} (halike : Alike {} ctx) (offset : Nat) :
    ∃ moved, moved.map Token.unplaced = ts.map Token.unplaced ∧
      (ctx.after moved).closesSubstitution = false ∧
      ∀ rest us, PartedByLine body rest →
        Scans (ctx.after moved) (offset + utf8Width body) rest us →
          Scans ctx offset (body ++ rest) (moved ++ us) := by
  have hline : hashbangLength body = 0 := by
    rw [hashbangLength_eq, if_neg (mt List.isPrefixOf_iff_prefix.mp hbang)]
  have hrun := tokenize_eq_ok_iff.mp h
  rw [String.toList_ofList, hline, List.take_zero, List.drop_zero] at hrun
  obtain ⟨moved, hmoved, hafter, hsame⟩ := hrun.exists_of_alike halike offset
  refine ⟨moved, hsame, ?_, fun rest us hparted hrest => hmoved.append_line hparted hrest⟩
  rw [← hafter.closesSubstitution_eq]
  exact closesSubstitution_after h hclosed

end EdgeBundle.Lexer
