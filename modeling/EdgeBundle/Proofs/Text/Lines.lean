import EdgeBundle.Proofs.Text.Search

/-!
# Lines of a text

A text is cut after each newline. Leaving out whole lines leaves the other lines as they are, and a
text without newlines stands in a text exactly if it stands in one of the lines.

## Main definitions

* `lines`: the lines of a text.
* `Lined`: lists of lines as a text has them.
* `InOrder`: texts that stand one after the other in a text.

## Main statements

* `flatten_lines` and `lines_flatten`: texts and lists of lines are the same.
* `lines_flatten_filter`: the lines of a text from which lines have been left out.
* `flatten_filter_lines_eq_iff`: leaving out a line changes the text.
* `exists_mem_infix_of_infix_flatten`: a text without newlines stands in one line.
* `InOrder.of_flatten_filter`: what stands in order after lines have been left out stood so before.
-/

namespace EdgeBundle

/-- The lines of a text, each with the newline that ends it. The last line may have none. -/
def lines : List Char → List (List Char)
  | [] => []
  | c :: cs =>
    if c = '\n' then [c] :: lines cs
    else
      match lines cs with
      | [] => [[c]]
      | l :: ls => (c :: l) :: ls

/-- Lists of lines as a text has them: a newline ends every line but perhaps the last, and there is
none inside a line. -/
inductive Lined : List (List Char) → Prop
  | nil : Lined []
  | last {l : List Char} (hl : '\n' ∉ l) (hne : l ≠ []) : Lined [l]
  | line {body : List Char} {ls : List (List Char)} (hbody : '\n' ∉ body) (hls : Lined ls) :
      Lined ((body ++ ['\n']) :: ls)

/-! ## Texts and lines -/

theorem flatten_lines (text : List Char) : (lines text).flatten = text := by
  induction text with
  | nil => rfl
  | cons c cs ih =>
    rw [lines]
    split
    · rw [List.flatten_cons, ih, List.singleton_append]
    · cases hls : lines cs with
      | nil => rw [hls] at ih; rw [← ih]; rfl
      | cons l ls => rw [hls] at ih; rw [← ih]; rfl

theorem lined_lines (text : List Char) : Lined (lines text) := by
  induction text with
  | nil => exact .nil
  | cons c cs ih =>
    rw [lines]
    split
    next hc =>
      subst hc
      exact @Lined.line [] _ (by simp) ih
    next hc =>
      have hne : '\n' ≠ c := fun h => hc h.symm
      cases hls : lines cs with
      | nil => exact .last (by simpa using hne) (by simp)
      | cons l ls =>
        rw [hls] at ih
        cases ih with
        | last hl _ => exact .last (by simp [hne, hl]) (by simp)
        | @line body _ hbody hrest =>
          exact @Lined.line (c :: body) _ (by simp [hne, hbody]) hrest

/-- The first line is up to the first newline. -/
theorem lines_line {body : List Char} (hbody : '\n' ∉ body) (rest : List Char) :
    lines (body ++ '\n' :: rest) = (body ++ ['\n']) :: lines rest := by
  induction body with
  | nil => rw [List.nil_append, lines, if_pos rfl, List.nil_append]
  | cons c body ih =>
    rw [List.mem_cons, not_or] at hbody
    rw [List.cons_append, lines, if_neg (fun h => hbody.1 h.symm), ih hbody.2]
    rfl

theorem lines_last {l : List Char} (hl : '\n' ∉ l) (hne : l ≠ []) : lines l = [l] := by
  induction l with
  | nil => exact absurd rfl hne
  | cons c l ih =>
    rw [List.mem_cons, not_or] at hl
    rw [lines, if_neg (fun h => hl.1 h.symm)]
    cases l with
    | nil => rfl
    | cons d l => rw [ih hl.2 (by simp)]

/-- A text without newlines goes in front of the first line. -/
theorem lines_append_of_not_mem {l : List Char} (hl : '\n' ∉ l) (hne : l ≠ []) (rest : List Char) :
    lines (l ++ rest) = (l ++ (lines rest).headD []) :: (lines rest).tail := by
  induction l with
  | nil => exact absurd rfl hne
  | cons c l ih =>
    rw [List.mem_cons, not_or] at hl
    rw [List.cons_append, lines, if_neg (fun h => hl.1 h.symm)]
    cases l with
    | nil => cases hrest : lines rest <;> simp [hrest]
    | cons d l =>
      rw [ih hl.2 (by simp)]
      rfl

/-- The lines of a text that is made of lines. -/
theorem lines_flatten {ls : List (List Char)} (h : Lined ls) : lines ls.flatten = ls := by
  induction h with
  | nil => rfl
  | last hl hne =>
    rw [List.flatten_cons, List.flatten_nil, List.append_nil]
    exact lines_last hl hne
  | line hbody _ ih =>
    rw [List.flatten_cons, List.append_assoc, List.singleton_append, lines_line hbody, ih]

/-- The newline of a line is its last character. -/
theorem Lined.newline_not_mem {as bs : List Char} {ls : List (List Char)}
    (h : Lined ((as ++ bs) :: ls)) (hbs : bs ≠ []) : '\n' ∉ as := by
  generalize hl : as ++ bs = l at h
  cases h with
  | last hnot _ => exact fun hmem => hnot (hl ▸ List.mem_append_left bs hmem)
  | @line body _ hbody _ =>
    rcases List.append_eq_append_iff.mp hl with ⟨mid, rfl, -⟩ | ⟨mid, rfl, hmid⟩
    · exact fun hmem => hbody (List.mem_append_left mid hmem)
    · -- what is after the body is the newline alone
      obtain ⟨rfl, -⟩ | ⟨-, hnil⟩ := List.append_eq_singleton_iff.mp hmid.symm
      · rwa [List.append_nil]
      · exact absurd hnil hbs

/-- What comes before a line ends with a newline. -/
theorem Lined.getLast?_flatten {xs ys : List (List Char)} {l : List Char}
    (h : Lined (xs ++ l :: ys)) : ∀ c ∈ xs.flatten.getLast?, c = '\n' := by
  induction xs with
  | nil => nofun
  | cons x xs ih =>
    intro c hc
    rw [List.cons_append] at h
    generalize hls : xs ++ l :: ys = ls at h
    cases h with
    | last => simp at hls
    | @line body _ _ hrest =>
      subst hls
      rw [List.flatten_cons, List.getLast?_append] at hc
      cases hlast : xs.flatten.getLast? with
      | none =>
        rw [hlast] at hc
        simpa using hc.symm
      | some d =>
        rw [hlast] at hc
        cases hc
        exact ih hrest c hlast

/-- Lines may be left out. -/
theorem Lined.filter {ls : List (List Char)} (h : Lined ls) (p : List Char → Bool) :
    Lined (ls.filter p) := by
  induction h with
  | nil => exact .nil
  | @last l hl hne =>
    rw [List.filter_cons, List.filter_nil]
    split
    · exact .last hl hne
    · exact .nil
  | @line body ls hbody _ ih =>
    rw [List.filter_cons]
    split
    · exact .line hbody ih
    · exact ih

/-- Leaving out lines leaves the other lines as they are. -/
theorem lines_flatten_filter (text : List Char) (p : List Char → Bool) :
    lines ((lines text).filter p).flatten = (lines text).filter p :=
  lines_flatten ((lined_lines text).filter p)

/-- A text stays as it is exactly if no line is left out. -/
theorem flatten_filter_lines_eq_iff {text : List Char} {p : List Char → Bool} :
    ((lines text).filter p).flatten = text ↔ ∀ l ∈ lines text, p l = true := by
  rw [← List.filter_eq_self]
  constructor
  · intro h
    rw [← lines_flatten_filter, h]
  · intro h
    rw [h, flatten_lines]

/-! ## Texts inside lines -/

/-- A piece without newlines does not stand across the end of a line: it is before or after it. -/
theorem append_newline_cases {body tail before piece after : List Char} (hpiece : '\n' ∉ piece)
    (h : body ++ '\n' :: tail = before ++ (piece ++ after)) :
    (∃ rest, body = before ++ (piece ++ rest) ∧ after = rest ++ '\n' :: tail) ∨
      ∃ mid, before = body ++ '\n' :: mid ∧ tail = mid ++ (piece ++ after) := by
  rcases List.append_eq_append_iff.mp h with ⟨mid, rfl, hmid⟩ | ⟨mid, rfl, hmid⟩
  · cases mid with
    | nil =>
      rw [List.nil_append] at hmid
      -- a piece right before the newline is empty
      cases piece with
      | nil => exact .inl ⟨[], by simp, hmid.symm⟩
      | cons c piece =>
        obtain ⟨rfl, -⟩ := List.cons.inj hmid
        simp at hpiece
    | cons c mid =>
      obtain ⟨rfl, htail⟩ := List.cons.inj hmid
      exact .inr ⟨mid, rfl, htail⟩
  · rcases List.append_eq_append_iff.mp hmid with ⟨rest, rfl, hafter⟩ | ⟨rest, rfl, hrest⟩
    · exact .inl ⟨rest, rfl, hafter⟩
    · -- a piece that reaches past the body has the newline in it
      cases rest with
      | nil => exact .inl ⟨[], by simp, hrest.symm⟩
      | cons c rest =>
        obtain ⟨rfl, -⟩ := List.cons.inj hrest
        simp at hpiece

/-- A text without newlines stands in one of the lines in which it stands. -/
theorem exists_mem_infix_of_infix_flatten {needle : List Char} {ls : List (List Char)}
    (hls : Lined ls) (hneedle : '\n' ∉ needle) (hne : needle ≠ [])
    (h : needle <:+: ls.flatten) : ∃ l ∈ ls, needle <:+: l := by
  induction hls with
  | nil => exact absurd (List.infix_nil.mp h) hne
  | @last l _ _ => exact ⟨l, List.mem_singleton_self l, by simpa using h⟩
  | @line body ls _ _ ih =>
    rw [List.flatten_cons, List.append_assoc, List.singleton_append] at h
    obtain ⟨before, after, heq⟩ := h
    rw [List.append_assoc] at heq
    rcases append_newline_cases hneedle heq.symm with ⟨rest, rfl, -⟩ | ⟨mid, -, hmid⟩
    · exact ⟨_, List.mem_cons_self, before, rest ++ ['\n'], by simp⟩
    · obtain ⟨l, hl, hin⟩ := ih ⟨mid, after, by rw [hmid, List.append_assoc]⟩
      exact ⟨l, List.mem_cons_of_mem _ hl, hin⟩

/-! ## Texts in order -/

/-- The pieces stand in the text one after the other, with any text around them. -/
def InOrder : List (List Char) → List Char → Prop
  | [], _ => True
  | piece :: pieces, text =>
    ∃ before after, text = before ++ (piece ++ after) ∧ InOrder pieces after

namespace InOrder

variable {pieces : List (List Char)}

theorem append_left {text : List Char} (h : InOrder pieces text) (head : List Char) :
    InOrder pieces (head ++ text) := by
  cases pieces with
  | nil => trivial
  | cons piece pieces =>
    obtain ⟨before, after, rfl, hafter⟩ := h
    exact ⟨head ++ before, after, (List.append_assoc _ _ _).symm, hafter⟩

theorem append_right {text : List Char} (h : InOrder pieces text) (tail : List Char) :
    InOrder pieces (text ++ tail) := by
  induction pieces generalizing text with
  | nil => trivial
  | cons piece pieces ih =>
    obtain ⟨before, after, rfl, hafter⟩ := h
    exact ⟨before, after ++ tail, by simp, ih hafter⟩

/-- What stands in order still does if text comes in after the end of a line. -/
theorem insert_after_newline (hpieces : ∀ p ∈ pieces, '\n' ∉ p) {body tail : List Char}
    (extra : List Char) (h : InOrder pieces (body ++ '\n' :: tail)) :
    InOrder pieces (body ++ '\n' :: (extra ++ tail)) := by
  induction pieces generalizing body with
  | nil => trivial
  | cons piece pieces ih =>
    obtain ⟨hpiece, hpieces⟩ := List.forall_mem_cons.mp hpieces
    obtain ⟨before, after, heq, hafter⟩ := h
    rcases append_newline_cases hpiece heq with ⟨rest, rfl, rfl⟩ | ⟨mid, rfl, rfl⟩
    · exact ⟨before, rest ++ '\n' :: (extra ++ tail), by simp, ih hpieces hafter⟩
    · exact ⟨body ++ '\n' :: (extra ++ mid), after, by simp, hafter⟩

/-- What stands in order after lines have been left out stood so before. -/
theorem of_flatten_filter (hpieces : ∀ p ∈ pieces, '\n' ∉ p) {ls : List (List Char)}
    (hls : Lined ls) {p : List Char → Bool} (h : InOrder pieces (ls.filter p).flatten) :
    InOrder pieces ls.flatten := by
  -- all that comes before the remaining lines ends with a newline, or is empty
  suffices hhead : ∀ head, (head = [] ∨ ∃ body, head = body ++ ['\n']) →
      InOrder pieces (head ++ (ls.filter p).flatten) → InOrder pieces (head ++ ls.flatten) from
    hhead [] (.inl rfl) h
  clear h
  induction hls with
  | nil => exact fun _ _ h => h
  | @last l _ _ =>
    intro head _ h
    rw [List.filter_cons, List.filter_nil] at h
    split at h
    · exact h
    · rw [List.flatten_nil, List.append_nil] at h
      exact h.append_right _
  | @line body ls _ _ ih =>
    intro head hhead h
    rw [List.filter_cons] at h
    split at h
    · rw [List.flatten_cons, ← List.append_assoc] at h ⊢
      exact ih _ (.inr ⟨head ++ body, (List.append_assoc _ _ _).symm⟩) h
    · have hrest := ih head hhead h
      rcases hhead with rfl | ⟨body', rfl⟩
      · exact hrest.append_left _
      · rw [List.append_assoc, List.singleton_append] at hrest ⊢
        exact hrest.insert_after_newline hpieces _

end InOrder

end EdgeBundle
