import EdgeBundle.Proofs.Token.Cut
import EdgeBundle.Proofs.Token.Template

/-!
# Runs cut at a token

A run can be cut where a token starts. Other text may come after the cut if the lexemes before it
end alike: if it starts with the same character, or both start with a letter. Lexemes that a letter
would go on with end before neither, and all others end before both.

## Main definitions

* `StartsAnew` and `EndsAlike`: characters before which punctuators end, and lexemes end alike.

## Main statements

* `LexemeAt.exchange_head`: a lexeme before other text.
* `Scans.exists_cut_token`: a run cut where a token starts.
-/

namespace EdgeBundle.Lexer

/-- The character goes on with no punctuator and no comment, and ends no line. -/
structure StartsAnew (d : Char) : Prop where
  /-- It neither ends a line nor starts a comment after a slash. -/
  not_mem : d ∉ ['\n', '/', '*']
  /-- It is no digit, which makes a number of a point. -/
  not_digit : d.isDigit = false
  /-- It goes on with no punctuator. -/
  not_mem_tail : ∀ p ∈ longPuncts, d ∉ p.toList.tail

instance (d : Char) : Decidable (StartsAnew d) :=
  decidable_of_iff
    (d ∉ ['\n', '/', '*'] ∧ d.isDigit = false ∧ ∀ p ∈ longPuncts, d ∉ p.toList.tail)
    ⟨fun h => ⟨h.1, h.2.1, h.2.2⟩, fun h => ⟨h.1, h.2, h.3⟩⟩

/-- Lexemes end before the one character where they end before the other. -/
structure EndsAlike (d d' : Char) : Prop where
  /-- The characters are the same, or both are letters. -/
  eq_or_isAlpha : d = d' ∨ d.isAlpha = true ∧ d'.isAlpha = true
  /-- The one goes on with nothing but words. -/
  left : StartsAnew d
  /-- Nor does the other. -/
  right : StartsAnew d'

instance (d d' : Char) : Decidable (EndsAlike d d') :=
  decidable_of_iff
    ((d = d' ∨ d.isAlpha = true ∧ d'.isAlpha = true) ∧ StartsAnew d ∧ StartsAnew d')
    ⟨fun h => ⟨h.1, h.2.1, h.2.2⟩, fun h => ⟨h.1, h.2, h.3⟩⟩

/-! ## Lengths before other text -/

section Lengths

variable {d d' : Char} {cs rest rest' : List Char}

theorem identLength_cons (c : Char) (cs : List Char) :
    identLength (c :: cs) = if isIdentPart c = true then identLength cs + 1 else 0 := by
  by_cases hc : isIdentPart c = true <;> simp [identLength, hc]

/-- An identifier that ends in a text ends there before other text, too. -/
theorem identLength_exchange (h : EndsAlike d d')
    (hle : identLength (cs ++ d :: rest) ≤ cs.length) :
    identLength (cs ++ d' :: rest') = identLength (cs ++ d :: rest) := by
  induction cs with
  | nil =>
    rw [List.nil_append, identLength_cons] at hle ⊢
    split at hle
    next => exact absurd hle (Nat.not_succ_le_zero _)
    next hd =>
      have hd' : ¬ isIdentPart d' = true := by
        rcases h.eq_or_isAlpha with rfl | ⟨halpha, -⟩
        · exact hd
        · exact absurd (by simp [isIdentPart, isIdentStart, halpha]) hd
      rw [List.nil_append, identLength_cons, if_neg hd, if_neg hd']
  | cons c cs ih =>
    rw [List.cons_append, identLength_cons] at hle
    rw [List.cons_append, List.cons_append, identLength_cons, identLength_cons]
    split at hle
    next hc => rw [if_pos hc, if_pos hc, ih (Nat.le_of_succ_le_succ hle)]
    next hc => rw [if_neg hc, if_neg hc]

/-- A number that ends in a text ends there before other text, too. -/
theorem numberLength_exchange {hex : Bool} {last : Char} {n : Nat} (h : EndsAlike d d')
    (hle : numberLength hex last n (cs ++ d :: rest) ≤ n + cs.length) :
    numberLength hex last n (cs ++ d' :: rest') = numberLength hex last n (cs ++ d :: rest) := by
  -- on the text before the end, which the number is read through character by character
  induction cs generalizing last n with
  | nil =>
    rw [List.nil_append, numberLength] at hle ⊢
    split at hle
    next =>
      have := le_numberLength hex d (n + 1) rest
      simp only [List.length_nil, Nat.add_zero] at hle
      omega
    next hd =>
      rw [List.nil_append, numberLength, if_neg hd]
      rcases h.eq_or_isAlpha with rfl | ⟨halpha, -⟩
      · exact if_neg hd
      · exact absurd (by simp [Char.isAlphanum, halpha]) hd
  | cons c cs ih =>
    rw [List.cons_append, numberLength] at hle
    rw [List.cons_append, List.cons_append, numberLength, numberLength]
    split at hle
    next hc =>
      rw [if_pos hc, if_pos hc, ih]
      rw [List.length_cons] at hle
      omega
    next hc => rw [if_neg hc, if_neg hc]

/-- A line does not end right before a character that is no newline. -/
theorem lineLength_ne (hd : d ≠ '\n') : lineLength (cs ++ d :: rest) ≠ cs.length := by
  induction cs with
  | nil => simp [lineLength_cons, hd]
  | cons c cs ih =>
    rw [List.cons_append, lineLength_cons]
    split
    · simp
    · simpa using ih

end Lengths

/-! ## Lexemes before other text -/

section Exchange

variable {ctx : Context} {c d d' : Char} {cs rest rest' : List Char}

theorem StartsAnew.endsPunct (h : StartsAnew d) (rest : List Char) : EndsPunct (d :: rest) := by
  intro e he
  cases he
  exact ⟨h.not_digit, h.not_mem_tail⟩

/-- What starts nothing but a punctuator does so before other text, too. -/
theorem StartsPunct.exchange_head (h : EndsAlike d d') (hc : StartsPunct ctx c (cs ++ d :: rest)) :
    StartsPunct ctx c (cs ++ d' :: rest') := by
  refine hc.of_head (fun _ e he hhead => ?_) fun hdigit => ?_
  · cases cs with
    | cons => exact hhead
    | nil =>
      cases hhead
      exact absurd (List.mem_cons_of_mem '\n' he) h.right.not_mem
  · cases cs with
    | cons => exact hdigit
    | nil =>
      rw [List.nil_append, List.head?_cons, Option.any_some, h.right.not_digit] at hdigit
      cases hdigit

/-- A lexeme is the same before other text before which lexemes end alike. -/
theorem LexemeAt.exchange_head {kind : Option TokenKind} {more : Nat} (h : EndsAlike d d')
    (hl : LexemeAt ctx c (cs ++ d :: rest) ⟨kind, more⟩) (hmore : more ≤ cs.length) :
    LexemeAt ctx c (cs ++ d' :: rest') ⟨kind, more⟩ := by
  refine hl.exchange_rest hmore ?line ?word ?number ?punct
  case line =>
    have hnewline : d ≠ '\n' := by
      rintro rfl
      exact h.left.not_mem (by decide)
    rintro - rfl
    exact lineLength_append (Nat.lt_of_le_of_ne hmore (lineLength_ne hnewline)) (d' :: rest')
  case word => exact fun _ _ _ _ _ hle => identLength_exchange h hle
  case number => exact fun hex hle => numberLength_exchange h (by rwa [Nat.zero_add])
  case punct =>
    intro hstarts _
    refine ⟨hstarts.exchange_head h, ?_⟩
    rw [punctLength_append (h.left.endsPunct rest), punctLength_append (h.right.endsPunct rest')]

/-- The same for a lexeme with more text between it and the exchanged text. -/
theorem LexemeAt.exchange_head_append {kind : Option TokenKind} {word mid : List Char}
    (h : EndsAlike d d') (hl : LexemeAt ctx c (word ++ (mid ++ d :: rest)) ⟨kind, word.length⟩) :
    LexemeAt ctx c (word ++ (mid ++ d' :: rest')) ⟨kind, word.length⟩ := by
  rw [← List.append_assoc] at hl ⊢
  refine hl.exchange_head h ?_
  rw [List.length_append]
  exact Nat.le_add_right _ _

end Exchange

/-! ## Runs cut at a token -/

/-- A run can be cut where a token starts, and other text may come there before which lexemes end
alike. -/
theorem Scans.exists_cut_token {ctx : Context} {offset : Nat} {pre tail : List Char} {d : Char}
    {before after : List Token} {t : Token}
    (h : Scans ctx offset (pre ++ d :: tail) (before ++ t :: after))
    (hstart : t.start = offset + utf8Width pre) :
    Scans (ctx.after before) (offset + utf8Width pre) (d :: tail) (t :: after) ∧
      ∀ d' tail' ts, EndsAlike d d' →
        Scans (ctx.after before) (offset + utf8Width pre) (d' :: tail') ts →
          Scans ctx offset (pre ++ d' :: tail') (before ++ ts) := by
  generalize hcs : pre ++ d :: tail = cs at h
  generalize hts : before ++ t :: after = all at h
  induction h generalizing pre before with
  | done => simp at hts
  | @gap ctx offset c cs more all hl hrun ih =>
    subst hts
    have hle := hrun.covers.offset_le_start (List.mem_append_right before List.mem_cons_self)
    obtain ⟨word, mid, rfl, rfl, rfl⟩ :=
      exists_eq_cons_append more hcs (by omega) (List.cons_ne_nil d tail)
    rw [List.take_left, List.drop_left] at ih
    rw [← List.cons_append, utf8Width_append, ← Nat.add_assoc] at hstart ⊢
    obtain ⟨hcut, hreads⟩ := ih hstart rfl rfl
    refine ⟨hcut, fun d' tail' ts hends hrun' => ?_⟩
    rw [List.append_assoc]
    exact .skip (hl.exchange_head_append hends) (hreads d' tail' ts hends hrun')
  | @token ctx offset c cs kind more u us hl hu hrun ih =>
    rcases before with - | ⟨b, before⟩
    -- the cut is at the start of the first token
    · obtain ⟨rfl, rfl⟩ := List.cons.inj hts
      rw [hu] at hstart
      obtain rfl : pre = [] := utf8Width_eq_zero_iff.mp (Nat.add_eq_left.mp hstart.symm)
      rw [List.nil_append] at hcs
      rw [hcs]
      exact ⟨.token hl hu hrun, fun _ _ _ _ h => h⟩
    · obtain ⟨rfl, rfl⟩ := List.cons.inj hts
      have hle := hrun.covers.offset_le_start (List.mem_append_right before List.mem_cons_self)
      obtain ⟨word, mid, rfl, rfl, rfl⟩ :=
        exists_eq_cons_append more hcs (by omega) (List.cons_ne_nil d tail)
      rw [List.take_left] at hu
      rw [List.take_left, List.drop_left] at ih
      rw [← List.cons_append, utf8Width_append, ← Nat.add_assoc] at hstart ⊢
      obtain ⟨hcut, hreads⟩ := ih hstart rfl rfl
      refine ⟨hcut, fun d' tail' ts hends hrun' => ?_⟩
      subst hu
      rw [List.append_assoc]
      exact .read (hl.exchange_head_append hends) (hreads d' tail' ts hends hrun')

end EdgeBundle.Lexer
