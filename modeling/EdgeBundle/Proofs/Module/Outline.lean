import EdgeBundle.Module.Statement
import EdgeBundle.Proofs.Token.Lexeme

/-!
# Outlines

Reading the statements of a module goes from token to token. A keyword that starts a form is read
with the form, and any other token is stepped over. Every statement starts with its keyword and ends
between two tokens, and no statement reaches into the next one.

## Main definitions

* `Statement.Spans`: where a statement starts and ends among the tokens.

## Main statements

* `outline_cons_of_form` and `outline_cons_of_error`: a form at the first token.
* `spans_of_mem_outline`: every statement of an outline spans whole tokens.
* `exists_readForm_of_mem_outline`: every statement of an outline has been read from its keyword on.
* `pairwise_outline`: the statements of an outline are in order and apart.
-/

namespace EdgeBundle.Statement

@[simp]
theorem startsPunct_cons (p : String) (t : Token) (ts : List Token) :
    startsPunct p (t :: ts) = t.isPunct p := rfl

@[simp]
theorem startsWord_cons (w : String) (t : Token) (ts : List Token) :
    startsWord w (t :: ts) = t.isWord w := rfl

/-- The statement starts with an `import` or `export` keyword of the tokens and ends no earlier,
where a token starts or ends. -/
structure Spans (s : Statement) (ts : List Token) : Prop where
  /-- It starts with a keyword. -/
  exists_keyword : ∃ t ∈ ts, isKeyword t = true ∧ s.start = t.start
  /-- It does not end before it starts. -/
  start_le_stop : s.start ≤ s.stop
  /-- It ends where a token starts or ends. -/
  exists_stop : ∃ t ∈ ts, s.stop = t.start ∨ s.stop = t.stop

theorem Spans.of_suffix {s : Statement} {ts ts' : List Token} (h : s.Spans ts) (hts : ts <:+ ts') :
    s.Spans ts' := by
  obtain ⟨⟨t, ht, hkey⟩, hle, ⟨u, hu, hstop⟩⟩ := h
  exact ⟨⟨t, hts.mem ht, hkey⟩, hle, ⟨u, hts.mem hu, hstop⟩⟩

/-- Tokens that end no earlier than they start, in order and apart. -/
structure InOrder (ts : List Token) : Prop where
  /-- A token does not end before it starts. -/
  start_le_stop : ∀ t ∈ ts, t.start ≤ t.stop
  /-- Every token ends before the next one starts. -/
  pairwise : ts.Pairwise fun a b => a.stop ≤ b.start

theorem InOrder.of_suffix {ts ts' : List Token} (h : InOrder ts') (hts : ts <:+ ts') :
    InOrder ts where
  start_le_stop t ht := h.start_le_stop t (hts.mem ht)
  pairwise := h.pairwise.sublist hts.sublist

namespace CutsAt

variable {ts rest : List Token} {stop : Nat}

/-- No token after a cut starts before it. -/
theorem le_start_of_mem (h : CutsAt ts stop rest) (hts : InOrder ts) {t : Token} (ht : t ∈ rest) :
    stop ≤ t.start := by
  have hrest := hts.of_suffix h.isSuffix
  obtain ⟨used, last, rfl, rfl | ⟨next, hnext, rfl⟩⟩ := h
  · exact (List.pairwise_cons.mp (hts.pairwise.sublist (List.sublist_append_right used _))).1 t ht
  · cases rest with
    | nil => cases hnext
    | cons d rest =>
      cases hnext
      rcases List.mem_cons.mp ht with rfl | ht
      · exact Nat.le_refl _
      · exact Nat.le_trans (hrest.start_le_stop next List.mem_cons_self)
          ((List.pairwise_cons.mp hrest.pairwise).1 t ht)

/-- A cut does not lie before the first token. -/
theorem start_le {t : Token} (h : CutsAt (t :: ts) stop rest) (hts : InOrder (t :: ts)) :
    t.start ≤ stop := by
  have hfirst : ∀ u ∈ t :: ts, t.start ≤ u.start := by
    intro u hu
    rcases List.mem_cons.mp hu with rfl | hu
    · exact Nat.le_refl _
    · exact Nat.le_trans (hts.start_le_stop t List.mem_cons_self)
        ((List.pairwise_cons.mp hts.pairwise).1 u hu)
  obtain ⟨used, last, heq, rfl | ⟨next, hnext, rfl⟩⟩ := h
  · have hlast : last ∈ t :: ts := by simp [heq]
    exact Nat.le_trans (hfirst last hlast) (hts.start_le_stop last hlast)
  · refine hfirst next ?_
    rw [heq]
    exact List.mem_append_right _ (List.mem_cons_of_mem _ (List.mem_of_mem_head? hnext))

/-- The first token lies before every cut. -/
theorem isSuffix_tail {t : Token} (h : CutsAt (t :: ts) stop rest) : rest <:+ ts := by
  obtain ⟨_ | ⟨_, used⟩, last, heq, -⟩ := h
  · cases heq
    exact List.suffix_refl _
  · cases heq
    exact (List.suffix_cons last rest).trans (List.suffix_append used _)

theorem exists_mem (h : CutsAt ts stop rest) : ∃ t ∈ ts, stop = t.start ∨ stop = t.stop := by
  obtain ⟨used, last, rfl, rfl | ⟨next, hnext, rfl⟩⟩ := h
  · exact ⟨last, by simp, .inr rfl⟩
  · exact ⟨next, List.mem_append_right _ (List.mem_cons_of_mem _ (List.mem_of_mem_head? hnext)),
      .inl rfl⟩

end CutsAt

/-! ## Reading statements step by step -/

section Steps

variable {afterDot : Bool} {t : Token} {ts : List Token}

/-- The token is a keyword that starts a form and does not name a property. -/
def startsForm (afterDot : Bool) (t : Token) (ts : List Token) : Bool :=
  isKeyword t && !afterDot && !startsPunct ":" ts

/-- A form that cannot be read ends the outline. -/
theorem outline_cons_of_error {fault : SyntaxFault} (hstarts : startsForm afterDot t ts = true)
    (h : readForm t ts = .error fault) : outline afterDot (t :: ts) = ⟨[], some fault⟩ := by
  rw [startsForm] at hstarts
  rw [outline, if_pos hstarts]
  split
  next h' => rw [h] at h'; cases h'; rfl
  next h' => rw [h] at h'; cases h'

/-- A form that has been read is the next statement. -/
theorem outline_cons_of_form {form : Form} {stop : Nat} {rest : List Token}
    (hstarts : startsForm afterDot t ts = true) (h : readForm t ts = .ok ⟨some form, stop, rest⟩) :
    outline afterDot (t :: ts) =
      ⟨⟨t.start, stop, form⟩ :: (outline false rest).statements, (outline false rest).fault⟩ := by
  rw [startsForm] at hstarts
  rw [outline, if_pos hstarts]
  split
  next h' => rw [h] at h'; cases h'
  next h' => rw [h] at h'; cases h'; rfl

/-- A use of a keyword that needs no change is stepped over. -/
theorem outline_cons_of_none {stop : Nat} {rest : List Token}
    (hstarts : startsForm afterDot t ts = true) (h : readForm t ts = .ok ⟨none, stop, rest⟩) :
    outline afterDot (t :: ts) = outline false rest := by
  rw [startsForm] at hstarts
  rw [outline, if_pos hstarts]
  split
  next h' => rw [h] at h'; cases h'
  next h' => rw [h] at h'; cases h'; rfl

/-- A token that starts no form is stepped over. -/
theorem outline_cons_of_not_startsForm (hstarts : ¬ startsForm afterDot t ts = true) :
    outline afterDot (t :: ts) = outline (t.isPunct "." || t.isPunct "?.") ts := by
  rw [startsForm] at hstarts
  rw [outline, if_neg hstarts]

/-- Any token but a keyword is stepped over. -/
theorem outline_cons_of_isKeyword_eq_false (hkey : isKeyword t = false) :
    outline afterDot (t :: ts) = outline (t.isPunct "." || t.isPunct "?.") ts :=
  outline_cons_of_not_startsForm (by simp [startsForm, hkey])

end Steps

/-! ## Keywords and separators -/

/-- Words that start the forms. -/
def keywords : List String :=
  ["import", "export"]

theorem isKeyword_iff {t : Token} :
    isKeyword t = true ↔ t.kind = .ident ∧ t.text ∈ keywords := by
  simp [isKeyword, keywords, Token.isWord, and_or_left]

/-- The letters that a keyword starts with. -/
theorem exists_cons_of_isKeyword {t : Token} (h : isKeyword t = true) :
    ∃ d word, t.text.toList = d :: word ∧ (d = 'i' ∨ d = 'e') := by
  have htext := (isKeyword_iff.mp h).2
  simp only [keywords, List.mem_cons, List.not_mem_nil, or_false] at htext
  rcases htext with htext | htext <;> rw [htext]
  · exact ⟨'i', "mport".toList, rfl, .inl rfl⟩
  · exact ⟨'e', "xport".toList, rfl, .inr rfl⟩

/-- A name or value that is no keyword is stepped over. -/
theorem outline_cons_of_ne_punct {t : Token} {ts : List Token} (hkind : t.kind ≠ .punct)
    (htext : t.text ∉ keywords) : outline false (t :: ts) = outline false ts := by
  have hkey : isKeyword t = false :=
    Bool.eq_false_iff.mpr fun h => htext (isKeyword_iff.mp h).2
  rw [outline_cons_of_isKeyword_eq_false hkey, Token.isPunct_eq_false hkind,
    Token.isPunct_eq_false hkind, Bool.or_self]

/-- Punctuators that part names and values in a declaration. -/
def separators : List String :=
  ["=", ",", ";"]

/-- A separator is no other punctuator. -/
theorem isPunct_of_mem_separators {t : Token} {p : String} (htext : t.text ∈ separators)
    (hp : p ∉ separators) : t.isPunct p = false :=
  Bool.eq_false_iff.mpr fun h => hp ((Token.isPunct_iff.mp h).2 ▸ htext)

/-- A separator is stepped over. -/
theorem outline_cons_of_separator {t : Token} {ts : List Token} (hkind : t.kind = .punct)
    (htext : t.text ∈ separators) : outline false (t :: ts) = outline false ts := by
  have hkey : isKeyword t = false := by
    simp [isKeyword, Token.isWord, hkind]
  have hdot : t.isPunct "." = false ∧ t.isPunct "?." = false :=
    ⟨isPunct_of_mem_separators htext (by decide), isPunct_of_mem_separators htext (by decide)⟩
  rw [outline_cons_of_isKeyword_eq_false hkey, hdot.1, hdot.2, Bool.or_self]

/-- No form goes on with a separator after its keyword. -/
theorem readForm_separator {t u : Token} {ts : List Token} (hkind : u.kind = .punct)
    (htext : u.text ∈ separators) : ∃ fault, readForm t (u :: ts) = .error fault := by
  obtain ⟨kind, start, text⟩ := u
  cases hkind
  simp only [separators, List.mem_cons, List.not_mem_nil, or_false] at htext
  by_cases himport : t.text = "import"
  · rcases htext with rfl | rfl | rfl <;> exact ⟨_, by rw [readForm, if_pos himport]; rfl⟩
  · rcases htext with rfl | rfl | rfl <;> exact ⟨_, by rw [readForm, if_neg himport]; rfl⟩

/-- A keyword before a separator ends the outline. -/
theorem outline_keyword_of_separator {t u : Token} {ts : List Token} (hkey : isKeyword t = true)
    (hkind : u.kind = .punct) (htext : u.text ∈ separators) :
    ∃ fault, outline false (t :: u :: ts) = ⟨[], some fault⟩ := by
  obtain ⟨fault, hfault⟩ := @readForm_separator t u ts hkind htext
  have hcolon : startsPunct ":" (u :: ts) = false := isPunct_of_mem_separators htext (by decide)
  have hstarts : startsForm false t (u :: ts) = true := by
    simp [startsForm, hkey, hcolon]
  exact ⟨fault, outline_cons_of_error hstarts hfault⟩

/-! ## Spans -/

/-- A form that has been read with its keyword spans whole tokens. -/
theorem spans_of_readForm {t : Token} {ts : List Token} {r : Found} {form : Form}
    (h : readForm t ts = .ok r) (hkey : isKeyword t = true) (hts : InOrder (t :: ts)) :
    Spans ⟨t.start, r.stop, form⟩ (t :: ts) where
  exists_keyword := ⟨t, List.mem_cons_self, hkey, rfl⟩
  start_le_stop := (readForm_cutsAt h).start_le hts
  exists_stop := (readForm_cutsAt h).exists_mem

/-- Every statement of an outline spans whole tokens. -/
theorem spans_of_mem_outline {afterDot : Bool} {ts : List Token} {s : Statement}
    (hts : InOrder ts) (hs : s ∈ (outline afterDot ts).statements) : s.Spans ts := by
  fun_induction outline afterDot ts with
  | case1 => cases hs
  | case2 => cases hs
  | case3 _ t ts _ r hr _ ih =>
    have hrest := (readForm_cutsAt hr).isSuffix
    exact (ih (hts.of_suffix hrest) hs).of_suffix hrest
  | case4 _ t ts hkey r hr form _ later ih =>
    have hrest := (readForm_cutsAt hr).isSuffix
    rcases List.mem_cons.mp hs with rfl | hs
    · simp only [Bool.and_eq_true] at hkey
      exact spans_of_readForm hr hkey.1.1 hts
    · exact (ih (hts.of_suffix hrest) hs).of_suffix hrest
  | case5 _ t ts _ ih =>
    exact (ih (hts.of_suffix (List.suffix_cons t ts)) hs).of_suffix (List.suffix_cons t ts)

/-- Every statement of an outline has been read from its keyword on. -/
theorem exists_readForm_of_mem_outline {afterDot : Bool} {ts : List Token} {s : Statement}
    (hs : s ∈ (outline afterDot ts).statements) :
    ∃ used t after rest, ts = used ++ t :: after ∧ isKeyword t = true ∧ s.start = t.start ∧
      readForm t after = .ok ⟨some s.form, s.stop, rest⟩ := by
  -- what is read from a suffix is read from all of the tokens
  have hmore {u : Token} {ts rest : List Token} (hrest : rest <:+ u :: ts)
      (h : ∃ used t after rest', rest = used ++ t :: after ∧ isKeyword t = true ∧
        s.start = t.start ∧ readForm t after = .ok ⟨some s.form, s.stop, rest'⟩) :
      ∃ used t after rest', u :: ts = used ++ t :: after ∧ isKeyword t = true ∧
        s.start = t.start ∧ readForm t after = .ok ⟨some s.form, s.stop, rest'⟩ := by
    obtain ⟨skipped, hskipped⟩ := hrest
    obtain ⟨used, t, after, rest', rfl, hread⟩ := h
    exact ⟨skipped ++ used, t, after, rest', by rw [← hskipped, List.append_assoc], hread⟩
  fun_induction outline afterDot ts with
  | case1 => cases hs
  | case2 => cases hs
  | case3 _ t ts _ r hr _ ih => exact hmore (readForm_cutsAt hr).isSuffix (ih hs)
  | case4 _ t ts hkey r hr form hform later ih =>
    rcases List.mem_cons.mp hs with rfl | hs
    · simp only [Bool.and_eq_true] at hkey
      exact ⟨[], t, ts, r.rest, rfl, hkey.1.1, rfl, by rw [hr, ← hform]⟩
    · exact hmore (readForm_cutsAt hr).isSuffix (ih hs)
  | case5 _ t ts _ ih => exact hmore (List.suffix_cons t ts) (ih hs)

/-- Every statement of an outline ends before the next one starts. -/
theorem pairwise_outline {afterDot : Bool} {ts : List Token} (hts : InOrder ts) :
    (outline afterDot ts).statements.Pairwise fun a b => a.stop ≤ b.start := by
  fun_induction outline afterDot ts with
  | case1 => exact .nil
  | case2 => exact .nil
  | case3 _ t ts _ r hr _ ih => exact ih (hts.of_suffix (readForm_cutsAt hr).isSuffix)
  | case4 _ t ts _ r hr form _ later ih =>
    have hrest := hts.of_suffix (readForm_cutsAt hr).isSuffix
    refine .cons (fun s hs => ?_) (ih hrest)
    -- a later statement starts with a token that has not been read yet
    obtain ⟨u, hu, -, hstart⟩ := (spans_of_mem_outline hrest hs).exists_keyword
    rw [hstart]
    exact (readForm_cutsAt hr).le_start_of_mem hts hu
  | case5 _ t ts _ ih => exact ih (hts.of_suffix (List.suffix_cons t ts))

/-- Without the keywords there is nothing to read. -/
theorem outline_eq_nil {afterDot : Bool} {ts : List Token}
    (h : ∀ t ∈ ts, isKeyword t = false) : outline afterDot ts = ⟨[], none⟩ := by
  induction ts generalizing afterDot with
  | nil => rw [outline]
  | cons t ts ih =>
    rw [outline_cons_of_isKeyword_eq_false (h t List.mem_cons_self)]
    exact ih fun u hu => h u (List.mem_cons_of_mem _ hu)

end EdgeBundle.Statement
