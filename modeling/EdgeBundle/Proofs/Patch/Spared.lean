import EdgeBundle.Proofs.Patch.Edits
import EdgeBundle.Proofs.Token.Spelling

/-!
# What the default patches leave alone

Tokens on which no edit of the default patches lies stand in the patched text as they stood in the
source. A string or regular expression is changed only if the guard is put into it, a template
literal also if one of its own lines is taken for a line with the call of the handler. A call of the
handler that goes on with a member access is taken out exactly if it stands alone on its line, so
that the access comes on a later one.

## Main definitions

* `Token.StaysIn`: the token stands in the patched text.
* `StandsAlone`: the token is on a line that does nothing but call the handler.
* `Spares`: what the patched text keeps of the tokens.

## Main statements

* `applyAll_defaults_spares`: what the default patches keep.
* `applyAll_defaults_takes_chained_call`: a call that goes on in the next line is taken out.
-/

namespace EdgeBundle

open Edit (Splices)

/-- The token stands in the patched text, between what comes of the source before it and what comes
of the source after it. -/
def Token.StaysIn (t : Token) (src : List Char) (edits : List Edit) (out : List Char) : Prop :=
  ∃ earlier later before after before' after', edits = earlier ++ later ∧
    src = before ++ (t.text.toList ++ after) ∧ out = before' ++ (t.text.toList ++ after') ∧
    t.start = utf8Width before ∧ Splices 0 before earlier before' ∧
    Splices t.stop after later after'

/-- Byte `n` is inside the token. -/
def Token.Surrounds (t : Token) (n : Nat) : Prop :=
  t.start < n ∧ n < t.stop

/-- A token stays exactly if every edit lies before or after it. -/
theorem Token.staysIn_iff {t : Token} {src out : List Char} {edits : List Edit}
    (h : Splices 0 src edits out) (ht : t.StandsAt src) :
    t.StaysIn src edits out ↔ ∀ e ∈ edits, e.stop ≤ t.start ∨ t.stop ≤ e.start := by
  constructor
  · rintro ⟨earlier, later, before, after, before', after', rfl, -, -, hstart, hbefore, hafter⟩ e he
    rcases List.mem_append.mp he with he | he
    · have := (hbefore.span_le he).2.2
      omega
    · exact .inr (hafter.span_le he).1
  · intro hapart
    obtain ⟨before, after, rfl, hstart⟩ := ht
    have hstop : 0 + utf8Width (before ++ t.text.toList) = t.stop := by
      rw [utf8Width_append, hstart, utf8Width_toList, Token.stop, Nat.zero_add]
    rw [← hstart, ← hstop, ← Nat.zero_add (utf8Width before)] at hapart
    obtain ⟨earlier, later, before', after', rfl, rfl, hbefore, hafter⟩ := h.exists_around hapart
    rw [hstop] at hafter
    exact ⟨earlier, later, before, after, before', after', rfl, rfl, rfl, hstart.symm, hbefore,
      hafter⟩

namespace Patch

open Lexer (IsLiteral)

variable {src : List Char}

/-! ## Edits and tokens -/

/-- The first patch puts something in at byte `n`. -/
def GuardsAt (text : List Char) (n : Nat) : Prop :=
  ∃ before call, GuardsCall text before call ∧
    (n = utf8Width before ∨ n = utf8Width (before ++ call))

/-- What the default patches put in and take out lies before or after the token. -/
theorem forall_defaultEdit_apart_iff {t : Token} :
    (∀ e, DefaultEdit src e → e.stop ≤ t.start ∨ t.stop ≤ e.start) ↔
      (∀ n, GuardsAt src n → ¬ t.Surrounds n) ∧
        ∀ e ∈ trapEdits true true 0 (lines src), e.stop ≤ t.start ∨ t.stop ≤ e.start := by
  simp only [Token.Surrounds, not_and_or, Nat.not_lt]
  constructor
  · refine fun h => ⟨?_, fun e he => ?_⟩
    · rintro n ⟨before, call, hcall, rfl | rfl⟩
      · exact h _ (.openGuard hcall)
      · exact h _ (.closeGuard hcall)
    · obtain ⟨before, line, hline, rfl⟩ := mem_trapEdits_lines.mp he
      exact h _ (.trapLine hline)
  · rintro ⟨hguard, htrap⟩ e (hcall | hcall | hline)
    · exact hguard _ ⟨_, _, hcall, .inl rfl⟩
    · exact hguard _ ⟨_, _, hcall, .inr rfl⟩
    · exact htrap _ (mem_trapEdits_lines.mpr ⟨_, _, hline, rfl⟩)

/-! ## Literals -/

theorem fenced_of_delimiter {c : Char} {text : List Char} (hc : c ∈ Lexer.delimiters)
    (hmem : c ∈ text) : Fenced text := by
  have hfences : Lexer.delimiters.all (· ∉ trapChars) = true := by decide
  exact ⟨c, hmem, of_decide_eq_true (List.all_eq_true.mp hfences c hc)⟩

section Literals

variable {kind : TokenKind} {text : List Char}

theorem fencedHead_of_isLiteral (h : IsLiteral kind text) : FencedHead text := by
  obtain ⟨c, body, d, last, rfl, hc, -⟩ := h
  have hline : '\n' ∉ [c] := by
    rw [List.mem_singleton]
    rintro rfl
    exact Lexer.newline_not_mem_delimiters hc
  exact ⟨[c], ⟨_, rfl⟩, hline, fenced_of_delimiter hc List.mem_cons_self⟩

theorem fencedLast_of_isLiteral (h : IsLiteral kind text) : FencedLast text := by
  obtain ⟨c, body, d, last, rfl, -, hd, hlast, -⟩ := h
  have hline : '\n' ∉ d :: last := by
    rw [List.mem_cons, not_or]
    refine ⟨?_, hlast⟩
    rintro rfl
    exact Lexer.newline_not_mem_delimiters hd
  exact ⟨d :: last, ⟨c :: body, rfl⟩, hline, fenced_of_delimiter hd List.mem_cons_self⟩

/-- The first and the last line of a literal stay, whatever they go on with. -/
theorem trapEdits_of_isLiteral (h : IsLiteral kind text) (offset : Nat) :
    trapEdits false false offset (lines text) = trapEdits true true offset (lines text) := by
  have hhead := @trapEdits_append true true offset [] text (.inr (fencedHead_of_isLiteral h))
  have hlast := @trapEdits_append false true offset text [] (.inl (fencedLast_of_isLiteral h))
  rw [List.nil_append, utf8Width_nil, Nat.add_zero] at hhead
  rw [List.append_nil] at hlast
  rw [hhead, hlast]
  exact (List.append_nil _).symm

/-- Lines go that are lines of the literal itself. -/
theorem forall_trapEdits_apart_iff {before after : List Char} (h : IsLiteral kind text) :
    (∀ e ∈ trapEdits true true 0 (lines (before ++ (text ++ after))),
        e.stop ≤ utf8Width before ∨ utf8Width (before ++ text) ≤ e.start) ↔
      ∀ l ∈ lines text, isTrapLine l = false := by
  have hsplit : trapEdits true true 0 (lines (before ++ (text ++ after))) =
      trapEdits true false 0 (lines before) ++
        (trapEdits true true (utf8Width before) (lines text) ++
          trapEdits false true (utf8Width (before ++ text)) (lines after)) := by
    rw [trapEdits_append (.inr ((fencedHead_of_isLiteral h).append_right after)),
      trapEdits_append (.inl (fencedLast_of_isLiteral h)), trapEdits_of_isLiteral h, Nat.zero_add,
      utf8Width_append]
  rw [hsplit]
  constructor
  · intro hapart l hl
    refine Bool.eq_false_iff.mpr fun htrap => ?_
    obtain ⟨xs, ys, hlines⟩ := List.append_of_mem hl
    have hedit := hapart _ (List.mem_append_right _ (List.mem_append_left _
      (mem_trapEdits.mpr ⟨xs, l, ys, hlines, htrap, rfl⟩)))
    -- the edit would lie on the literal
    have hne : utf8Width l ≠ 0 := by
      rw [ne_eq, utf8Width_eq_zero_iff]
      rintro rfl
      cases htrap
    have htext : text = xs.flatten ++ (l ++ ys.flatten) := by
      rw [← flatten_lines text, hlines, List.flatten_append, List.flatten_cons]
    simp only [htext, utf8Width_append] at hedit
    omega
  · intro hlines e he
    rcases List.mem_append.mp he with he | he
    · have := ((splices_lines true false 0 before).span_le he).2.2
      exact .inl (by omega)
    rcases List.mem_append.mp he with he | he
    · obtain ⟨xs, line, ys, hcut, htrap, -⟩ := mem_trapEdits.mp he
      rw [hlines line (by simp [hcut])] at htrap
      cases htrap
    · exact .inr ((splices_lines false true _ after).span_le he).1

/-- A string or a regular expression has no line that goes. -/
theorem isTrapLine_of_mem_lines (h : IsLiteral kind text) (hkind : kind = .str ∨ kind = .regex) :
    ∀ l ∈ lines text, isTrapLine l = false := by
  have hnone : trapEdits true true 0 (lines text) = [] := by
    rw [← trapEdits_of_isLiteral h]
    refine trapEdits_eq_nil fun l hl hlast => Bool.eq_false_iff.mpr fun htrap => ?_
    obtain ⟨body, rfl⟩ := List.getLast?_eq_some_iff.mp hlast
    obtain ⟨xs, ys, hlines⟩ := List.append_of_mem hl
    have htext : text = (xs.flatten ++ body) ++ '\n' :: ys.flatten := by
      rw [← flatten_lines text, hlines]
      simp
    have hne : body ≠ [] := by
      rintro rfl
      cases htrap
    -- the newline at the end of the line comes after a backslash
    have hescape := h.escapesLines hkind _ _ htext
    rw [List.getLast?_append_of_ne_nil _ hne] at hescape
    have hmem := mem_trapChars htrap (List.mem_append_left _ (List.mem_of_getLast? hescape))
    exact absurd hmem (by decide)
  intro l hl
  refine Bool.eq_false_iff.mpr fun htrap => ?_
  obtain ⟨xs, ys, hlines⟩ := List.append_of_mem hl
  have hedit := @mem_trapEdits 0 _ ⟨_, _, ""⟩ |>.mpr ⟨xs, l, ys, hlines, htrap, rfl⟩
  rw [hnone] at hedit
  cases hedit

end Literals

/-! ## Calls of the handler -/

/-- The name of the function that installs the handler. -/
def trapName : List Char :=
  "trapUnhandledErrors".toList

/-- The three tokens call the function, and a member of what it returns is accessed next. -/
structure ChainedCall (ts : List Token) (name opening closing : Token) : Prop where
  /-- The tokens follow one another, and a dot comes after them. -/
  exists_dot : ∃ earlier dot later, ts = earlier ++ name :: opening :: closing :: dot :: later ∧
    (dot.isPunct "." = true ∨ dot.isPunct "?." = true)
  /-- The function is named. -/
  name : name.isWord "trapUnhandledErrors" = true
  /-- It is called. -/
  opening : opening.isPunct "(" = true
  /-- It gets no arguments. -/
  closing : closing.isPunct ")" = true

/-- The token is on a line that does nothing but call the handler, without a semicolon. -/
def StandsAlone (text : List Char) (t : Token) : Prop :=
  ∃ before line, TrapLineAt text before line ∧ ';' ∉ line ∧ utf8Width before ≤ t.start ∧
    t.start < utf8Width (before ++ line)

/-- The parts of a line that goes. -/
theorem exists_parts_of_isTrapLine {line : List Char} (h : isTrapLine line = true) :
    ∃ bs middle stop after, line = bs ++ (trapName ++ '(' :: ')' :: (middle ++ (stop ++ after))) ∧
      (∀ b ∈ bs ++ (middle ++ after), b ∈ Lexer.blanks) ∧ stop ∈ [[';'], []] := by
  have hblanks {c : Char} (h : isLineBlank c = true) : c ∈ Lexer.blanks := by
    simp only [isLineBlank, Bool.or_eq_true, beq_iff_eq] at h
    rcases h with rfl | rfl <;> decide
  have hends : ∀ ending ∈ lineEnds, ending ⊆ Lexer.blanks := by decide
  obtain ⟨_, ending, hcode, hending, rfl⟩ := isTrapLine_iff.mp h
  obtain @⟨bs, middle, stop, after, hbefore, hmiddle, hstop, hafter⟩ := hcode
  refine ⟨bs, middle, stop, after ++ ending, ?_, ?_, hstop⟩
  · have hcall : trapCall = trapName ++ ['(', ')'] := by decide
    simp only [hcall, List.append_assoc, List.cons_append, List.nil_append]
  · simp only [List.mem_append]
    rintro b (hb | hb | hb | hb)
    · exact hblanks (hbefore b hb)
    · exact hblanks (hmiddle b hb)
    · exact hblanks (hafter b hb)
    · exact hends ending hending hb

/-- A character that is once on a line stands in the text where it does on the line. -/
theorem TrapLineAt.eq_append {before line as bs pre post : List Char} {c : Char}
    (h : TrapLineAt src before line) (hline : line = as ++ c :: bs) (has : c ∉ as) (hbs : c ∉ bs)
    (hsrc : src = pre ++ c :: post) (hle : utf8Width before ≤ utf8Width pre)
    (hlt : utf8Width pre < utf8Width (before ++ line)) : pre = before ++ as := by
  obtain ⟨xs, ys, hlines, rfl, -⟩ := h
  have htext : src = xs.flatten ++ (line ++ ys.flatten) := by
    rw [← flatten_lines src, hlines, List.flatten_append, List.flatten_cons]
  obtain ⟨mid, rfl, hmid⟩ := exists_append_of_width_le (htext.symm.trans hsrc) hle
  rw [utf8Width_append, utf8Width_append] at hlt
  rcases List.append_eq_append_iff.mp hmid with ⟨rest, rfl, -⟩ | ⟨rest, rfl, hrest⟩
  · rw [utf8Width_append] at hlt
    omega
  · cases rest with
    | nil =>
      rw [List.append_nil] at hlt
      omega
    | cons d rest =>
      obtain ⟨rfl, -⟩ := List.cons.inj hrest
      rw [((List.append_cons_inj_of_notMem has hbs).mp hline.symm).1]

theorem text_of_isPunct {t : Token} {p : String} (h : t.isPunct p = true) : t.text = p := by
  simp only [Token.isPunct, Bool.and_eq_true, beq_iff_eq] at h
  exact h.2

/-- A call that goes on with a dot as it stands in the source, with the gaps between its tokens. -/
structure CallAt (src : List Char) (name opening closing : Token)
    (before gap₁ gap₂ gap₃ : List Char) (d : Char) (after : List Char) : Prop where
  /-- The tokens and gaps stand one after the other. -/
  src_eq : src = before ++ (trapName ++ (gap₁ ++ '(' :: (gap₂ ++ ')' :: (gap₃ ++ d :: after))))
  /-- There is a gap before each token. -/
  isGap : Lexer.Gap ('(' :: (gap₂ ++ ')' :: (gap₃ ++ d :: after))) gap₁ ∧
    Lexer.Gap (')' :: (gap₃ ++ d :: after)) gap₂ ∧ Lexer.Gap (d :: after) gap₃
  /-- The last token is a dot. -/
  isDot : d ∈ ['.', '?']
  /-- Where the tokens of the call start. -/
  starts : name.start = utf8Width before ∧
    opening.start = utf8Width (before ++ (trapName ++ gap₁)) ∧
    closing.start = utf8Width (before ++ (trapName ++ (gap₁ ++ '(' :: gap₂)))
  /-- How long the tokens are. -/
  stops : name.stop = name.start + utf8Width trapName ∧ opening.stop = opening.start + 1 ∧
    closing.stop = closing.start + 1

theorem ChainedCall.exists_callAt {src : String} {ts : List Token} {name opening closing : Token}
    (h : ChainedCall ts name opening closing) (hts : tokenize src = .ok ts) :
    ∃ before gap₁ gap₂ gap₃ d after,
      CallAt src.toList name opening closing before gap₁ gap₂ gap₃ d after := by
  obtain ⟨⟨earlier, dot, later, rfl, hdot⟩, hname, hopening, hclosing⟩ := h
  obtain ⟨line, rest, hsrc, -, hcovers⟩ := Lexer.exists_covers_of_tokenize hts
  obtain ⟨before, _, rfl, hrest⟩ := hcovers.exists_append earlier
  have hnameText : name.text = "trapUnhandledErrors" := by
    simp only [Token.isWord, Bool.and_eq_true, beq_iff_eq] at hname
    exact hname.2
  have hopeningText : opening.text = "(" := text_of_isPunct hopening
  have hclosingText : closing.text = ")" := text_of_isPunct hclosing
  obtain ⟨d, more, hdotText, hd⟩ : ∃ d more, dot.text.toList = d :: more ∧ d ∈ ['.', '?'] := by
    rcases hdot with hdot | hdot
    · exact ⟨'.', [], by rw [text_of_isPunct hdot]; rfl, by decide⟩
    · exact ⟨'?', ['.'], by rw [text_of_isPunct hdot]; rfl, by decide⟩
  have hopeningStop : opening.stop = opening.start + 1 := by
    rw [Token.stop, hopeningText, (by decide : "(".utf8ByteSize = 1)]
  have hclosingStop : closing.stop = closing.start + 1 := by
    rw [Token.stop, hclosingText, (by decide : ")".utf8ByteSize = 1)]
  have hnameStop : name.stop = name.start + utf8Width trapName := by
    rw [Token.stop, hnameText, ← utf8Width_toList]
    rfl
  -- the four tokens, each after its gap
  obtain ⟨gap₀, _, rfl, -, hstart₀, hrest₀⟩ := hrest.exists_cons
  obtain ⟨gap₁, _, rfl, hgap₁, hstart₁, hrest₁⟩ := hrest₀.exists_cons
  obtain ⟨gap₂, _, rfl, hgap₂, hstart₂, hrest₂⟩ := hrest₁.exists_cons
  obtain ⟨gap₃, after, rfl, hgap₃, -, -⟩ := hrest₂.exists_cons
  rw [hdotText] at hgap₃ hgap₂ hgap₁
  rw [hclosingText] at hgap₂ hgap₁
  rw [hopeningText] at hgap₁
  refine ⟨line ++ (before ++ gap₀), gap₁, gap₂, gap₃, d, more ++ after, ?_, ⟨hgap₁, hgap₂, hgap₃⟩,
    hd, ⟨?_, ?_, ?_⟩, hnameStop, hopeningStop, hclosingStop⟩
  · have hnameChars : name.text.toList = trapName := by
      rw [hnameText]
      rfl
    rw [hsrc, hnameChars, hopeningText, hclosingText, hdotText]
    simp
  · rw [hstart₀, utf8Width_append, utf8Width_append]
    omega
  · rw [hstart₁, hnameStop, hstart₀]
    simp only [utf8Width_append]
    omega
  · rw [hstart₂, hopeningStop, hstart₁, hnameStop, hstart₀]
    have hparen : '('.utf8Size = 1 := rfl
    simp only [utf8Width_append, utf8Width_cons, hparen]
    omega

namespace CallAt

variable {name opening closing : Token} {before gap₁ gap₂ gap₃ after pre line bs : List Char}
  {d : Char}

/-- Where the name stands right before the parenthesis there is no gap between them. -/
theorem eq_append_of_opening (h : CallAt src name opening closing before gap₁ gap₂ gap₃ d after)
    (heq : before ++ (trapName ++ gap₁) = pre ++ (bs ++ trapName)) : before = pre ++ bs := by
  have hnil : gap₁ = [] := by
    by_contra hne
    have hlast := congrArg List.getLast? heq
    rw [← List.append_assoc, ← List.append_assoc pre, List.getLast?_append_of_ne_nil _ hne,
      List.getLast?_append_of_ne_nil _ (by decide)] at hlast
    have hmem := h.isGap.1.getLast?_mem (by decide) 's' (hlast.trans (by decide))
    exact absurd hmem (by decide)
  rw [hnil, List.append_nil, ← List.append_assoc] at heq
  exact List.append_cancel_right heq

/-- Where the parentheses stand side by side there is no gap between them. -/
theorem eq_append_of_closing (h : CallAt src name opening closing before gap₁ gap₂ gap₃ d after)
    (heq : before ++ (trapName ++ (gap₁ ++ '(' :: gap₂)) = pre ++ (bs ++ (trapName ++ ['(']))) :
    before = pre ++ bs := by
  have hnil : gap₂ = [] := by
    by_contra hne
    have hlast := congrArg List.getLast? heq
    have hleft : (before ++ (trapName ++ (gap₁ ++ '(' :: gap₂))).getLast? = gap₂.getLast? := by
      rw [List.append_cons, ← List.append_assoc trapName, ← List.append_assoc before,
        List.getLast?_append_of_ne_nil _ hne]
    have hright : (pre ++ (bs ++ (trapName ++ ['(']))).getLast? = some '(' := by simp
    rw [hleft, hright] at hlast
    exact absurd (h.isGap.2.1.getLast?_mem (by decide) '(' hlast) (by decide)
  rw [hnil] at heq
  refine h.eq_append_of_opening (@List.append_cancel_right _ _ ['('] _ ?_)
  simpa using heq

/-- If one of the tokens is on a line that goes, then only blanks of the line come before the
name. -/
theorem eq_append_of_onLine (h : CallAt src name opening closing before gap₁ gap₂ gap₃ d after)
    {rest : List Char} (hline : TrapLineAt src pre line)
    (hparts : line = bs ++ (trapName ++ '(' :: ')' :: rest)) (hbs : ∀ b ∈ bs, b ∈ Lexer.blanks)
    (hrest : ∀ c ∈ rest, c ∈ ';' :: Lexer.blanks) {t : Token} (ht : t ∈ [name, opening, closing])
    (hle : utf8Width pre ≤ t.start) (hlt : t.start < utf8Width (pre ++ line)) :
    before = pre ++ bs := by
  have hnot {c : Char} (hc : c ∉ ';' :: Lexer.blanks) : c ∉ bs ∧ c ∉ rest :=
    ⟨fun hmem => hc (List.mem_cons_of_mem _ (hbs c hmem)), fun hmem => hc (hrest c hmem)⟩
  obtain ⟨hname, hopening, hclosing⟩ := h.starts
  simp only [List.mem_cons, List.not_mem_nil, or_false] at ht
  -- each token starts with a character that is once on the line
  rcases ht with rfl | rfl | rfl
  · obtain ⟨hleft, hright⟩ := @hnot 't' (by decide)
    have hhead : trapName = 't' :: trapName.tail := by decide
    have hcut : line = bs ++ 't' :: (trapName.tail ++ '(' :: ')' :: rest) := by
      rw [hparts, hhead]
      rfl
    have htail : 't' ∉ trapName.tail ++ ['(', ')'] := by decide
    have hsrc := h.src_eq
    rw [hhead, List.cons_append] at hsrc
    rw [hname] at hle hlt
    refine hline.eq_append hcut hleft ?_ hsrc hle hlt
    have hright' : 't' ∉ (trapName.tail ++ ['(', ')']) ++ rest := by
      rw [List.mem_append, not_or]
      exact ⟨htail, hright⟩
    rwa [List.append_assoc] at hright'
  · obtain ⟨hleft, hright⟩ := @hnot '(' (by decide)
    have hcut : line = (bs ++ trapName) ++ '(' :: (')' :: rest) := by
      rw [hparts, List.append_assoc]
    have hsrc : src = (before ++ (trapName ++ gap₁)) ++
        '(' :: (gap₂ ++ ')' :: (gap₃ ++ d :: after)) := by
      rw [h.src_eq]
      simp
    have hword : '(' ∉ trapName := by decide
    rw [hopening] at hle hlt
    exact h.eq_append_of_opening (hline.eq_append hcut (by simp [hleft, hword])
      (by simp [hright]) hsrc hle hlt)
  · obtain ⟨hleft, hright⟩ := @hnot ')' (by decide)
    have hcut : line = (bs ++ (trapName ++ ['('])) ++ ')' :: rest := by
      rw [hparts]
      simp
    have hsrc : src = (before ++ (trapName ++ (gap₁ ++ '(' :: gap₂))) ++
        ')' :: (gap₃ ++ d :: after) := by
      rw [h.src_eq]
      simp
    have hword : ')' ∉ trapName := by decide
    rw [hclosing] at hle hlt
    exact h.eq_append_of_closing (hline.eq_append hcut (by simp [hleft, hword]) hright hsrc hle hlt)

/-- A call alone on its line has no semicolon there, since it goes on with a dot. -/
theorem stop_eq_nil (h : CallAt src name opening closing before gap₁ gap₂ gap₃ d after)
    {middle stop tail : List Char}
    (heq : src = before ++ (trapName ++ '(' :: ')' :: (middle ++ (stop ++ tail))))
    (hmiddle : ∀ b ∈ middle, b ∈ Lexer.blanks) (hstop : stop ∈ [[';'], []]) : stop = [] := by
  obtain ⟨hgap₁, hgap₂, hgap₃⟩ := h.isGap
  have hcalls := List.append_cancel_left (List.append_cancel_left (h.src_eq.symm.trans heq))
  -- the parentheses come right after the name
  cases gap₁ with
  | cons c gap₁ =>
    obtain ⟨rfl, -⟩ := List.cons.inj hcalls
    exact absurd (hgap₁.head?_mem '(' rfl) (by decide)
  | nil =>
    have hcalls := (List.cons.inj hcalls).2
    cases gap₂ with
    | cons c gap₂ =>
      obtain ⟨rfl, -⟩ := List.cons.inj hcalls
      exact absurd (hgap₂.head?_mem ')' rfl) (by decide)
    | nil =>
      have hcalls := (List.cons.inj hcalls).2
      simp only [List.mem_cons, List.not_mem_nil, or_false] at hstop
      rcases hstop with rfl | rfl
      · obtain ⟨e, he, hdot⟩ := hgap₃.head?_of_blanks hcalls hmiddle (by decide)
        cases he
        have hdots : ['.', '?'].all (· ∉ ';' :: Lexer.blanks) = true := by decide
        have hnot := of_decide_eq_true (List.all_eq_true.mp hdots d h.isDot)
        exact absurd (List.mem_cons.mpr hdot) hnot
      · rfl

/-- A token of the call is taken out only if the call stands alone on its line. -/
theorem standsAlone_of_onLine (h : CallAt src name opening closing before gap₁ gap₂ gap₃ d after)
    (hline : TrapLineAt src pre line) {t : Token} (ht : t ∈ [name, opening, closing])
    (hle : utf8Width pre ≤ t.start) (hlt : t.start < utf8Width (pre ++ line)) :
    StandsAlone src name := by
  obtain ⟨xs, ys, hlines, hpre, htrap⟩ := id hline
  obtain ⟨bs, middle, stop, ending, hparts, hblanks, hstop⟩ := exists_parts_of_isTrapLine htrap
  simp only [List.mem_append] at hblanks
  have hrest : ∀ c ∈ middle ++ (stop ++ ending), c ∈ ';' :: Lexer.blanks := by
    have hstops : ∀ stop ∈ [[';'], []], stop ⊆ ';' :: Lexer.blanks := by decide
    simp only [List.mem_append]
    rintro c (hc | hc | hc)
    · exact List.mem_cons_of_mem _ (hblanks c (.inr (.inl hc)))
    · exact hstops stop hstop hc
    · exact List.mem_cons_of_mem _ (hblanks c (.inr (.inr hc)))
  have hbefore := h.eq_append_of_onLine hline hparts (fun b hb => hblanks b (.inl hb)) hrest ht hle
    hlt
  have hsrc : src = before ++
      (trapName ++ '(' :: ')' :: (middle ++ (stop ++ (ending ++ ys.flatten)))) := by
    rw [← flatten_lines src, hlines, List.flatten_append, List.flatten_cons, ← hpre, hbefore,
      hparts]
    simp
  -- something is called on the result, so no semicolon comes after the call
  obtain rfl := h.stop_eq_nil hsrc (fun b hb => hblanks b (.inr (.inl hb))) hstop
  refine ⟨pre, line, hline, ?_, ?_, ?_⟩
  · have hname : ';' ∉ trapName := by decide
    have hnot : ';' ∉ Lexer.blanks := by decide
    rw [hparts]
    simp only [List.mem_append, List.mem_cons, List.not_mem_nil, not_or]
    exact ⟨fun hc => hnot (hblanks _ (.inl hc)), hname, by decide, by decide,
      fun hc => hnot (hblanks _ (.inr (.inl hc))), not_false,
      fun hc => hnot (hblanks _ (.inr (.inr hc)))⟩
  · rw [h.starts.1, hbefore, utf8Width_append]
    exact Nat.le_add_right _ _
  · have hpos : 0 < utf8Width (trapName ++ '(' :: ')' :: (middle ++ ([] ++ ending))) := by
      rw [Nat.pos_iff_ne_zero, ne_eq, utf8Width_eq_zero_iff]
      exact List.append_ne_nil_of_left_ne_nil (by decide) _
    rw [h.starts.1, hbefore, hparts]
    simp only [utf8Width_append] at hpos ⊢
    omega

/-- A line that goes does not start inside the name. -/
theorem name_start_le (h : CallAt src name opening closing before gap₁ gap₂ gap₃ d after)
    (hline : TrapLineAt src pre line) (hlt : utf8Width pre < name.stop) :
    utf8Width pre ≤ name.start := by
  obtain ⟨xs, ys, hlines, rfl, -⟩ := hline
  by_contra hinside
  rw [h.stops.1, h.starts.1, ← utf8Width_append] at hlt
  rw [h.starts.1, Nat.not_le] at hinside
  have hsrc : src = xs.flatten ++ (line ++ ys.flatten) := by
    rw [← flatten_lines src, hlines, List.flatten_append, List.flatten_cons]
  obtain ⟨x, y, hne, -, hword, hpre, -⟩ :=
    exists_append_of_inside (h.src_eq.symm.trans hsrc) hinside hlt
  -- the line comes after a newline, and there is none in the name
  have hlined := lined_lines src
  rw [hlines] at hlined
  have hlast := hlined.getLast?_flatten
  rw [hpre, List.getLast?_append_of_ne_nil _ hne] at hlast
  have hnewline : '\n' ∈ trapName := by
    obtain ⟨c, hc⟩ := Option.ne_none_iff_exists'.mp (mt List.getLast?_eq_none_iff.mp hne)
    rw [← hlast c hc, hword]
    exact List.mem_append_left _ (List.mem_of_getLast? hc)
  exact absurd hnewline (by decide)

/-- Nothing is put into the name. -/
theorem not_surrounds_name (h : CallAt src name opening closing before gap₁ gap₂ gap₃ d after)
    (hmaximal : ∀ c ∈ (gap₁ ++ '(' :: (gap₂ ++ ')' :: (gap₃ ++ d :: after))).head?,
      Lexer.isIdentPart c = false) {n : Nat} (hn : GuardsAt src n) : ¬ name.Surrounds n := by
  rintro ⟨hlt, hlt'⟩
  rw [h.stops.1, h.starts.1, ← utf8Width_append] at hlt'
  rw [h.starts.1] at hlt
  obtain ⟨as, call, ⟨_, bs, _, -, hguards⟩, rfl | rfl⟩ := hn
  · obtain ⟨x, y, hne, hne', hword, -, hcall⟩ :=
      exists_append_of_inside (h.src_eq.symm.trans hguards.text_eq) hlt hlt'
    -- of the name only its last letter is one with which a call starts, and the call goes on
    obtain ⟨c, y, rfl⟩ := List.exists_cons_of_ne_nil hne'
    obtain ⟨rest, hrest⟩ := hguards.isCall.exists_cons
    rw [hrest, List.cons_append, List.cons_append, List.cons_append] at hcall
    obtain ⟨rfl, htail⟩ := List.cons.inj hcall
    have hlast : trapName = trapName.dropLast ++ 's' :: [] := by decide
    have hcut :=
      (List.append_cons_inj_of_notMem (by decide) (by decide)).mp (hlast.symm.trans hword)
    rw [← hcut.2.2, List.nil_append] at htail
    have hpart := hmaximal 'e' (by rw [← htail]; rfl)
    exact absurd hpart (by decide)
  · have hsrc : src = (as ++ call) ++ bs := by rw [hguards.text_eq, List.append_assoc]
    obtain ⟨x, y, hne, -, hword, hcall, -⟩ :=
      exists_append_of_inside (h.src_eq.symm.trans hsrc) hlt hlt'
    -- a call ends with a semicolon
    obtain ⟨rest, hrest⟩ := hguards.isCall.exists_append
    have hlast := congrArg List.getLast? hcall
    rw [hrest, ← List.append_assoc, List.getLast?_concat,
      List.getLast?_append_of_ne_nil _ hne] at hlast
    have hsemicolon : ';' ∈ trapName := by
      rw [hword]
      exact List.mem_append_left _ (List.mem_of_getLast? hlast.symm)
    exact absurd hsemicolon (by decide)

/-- The call stays unless it stands alone on its line. -/
theorem forall_apart_iff (h : CallAt src name opening closing before gap₁ gap₂ gap₃ d after)
    (hmaximal : ∀ c ∈ (gap₁ ++ '(' :: (gap₂ ++ ')' :: (gap₃ ++ d :: after))).head?,
      Lexer.isIdentPart c = false) :
    (∀ t ∈ [name, opening, closing], ∀ e, DefaultEdit src e → e.stop ≤ t.start ∨ t.stop ≤ e.start) ↔
      ¬ StandsAlone src name := by
  constructor
  · rintro hapart ⟨pre, line, hline, -, hle, hlt⟩
    have hedit := hapart name List.mem_cons_self _ (.trapLine hline)
    have hpos : 0 < utf8Width trapName := by decide
    have hstop := h.stops.1
    simp only at hedit
    omega
  · intro halone t ht
    obtain ⟨hname, hopening, hclosing⟩ := h.stops
    have hedits := @forall_defaultEdit_apart_iff src t
    refine hedits.mpr ⟨fun n hn => ?_, fun e he => ?_⟩
    · simp only [List.mem_cons, List.not_mem_nil, or_false] at ht
      rcases ht with rfl | rfl | rfl
      · exact h.not_surrounds_name hmaximal hn
      -- there is no place inside a token of one character
      · rintro ⟨hlt, hlt'⟩
        omega
      · rintro ⟨hlt, hlt'⟩
        omega
    · obtain ⟨pre, line, hline, rfl⟩ := mem_trapEdits_lines.mp he
      by_contra hoverlap
      rw [not_or, Nat.not_le, Nat.not_le] at hoverlap
      refine halone (h.standsAlone_of_onLine hline ht ?_ hoverlap.1)
      simp only [List.mem_cons, List.not_mem_nil, or_false] at ht
      rcases ht with rfl | rfl | rfl
      · exact h.name_start_le hline hoverlap.2
      · have := hoverlap.2
        simp only at this
        omega
      · have := hoverlap.2
        simp only at this
        omega

end CallAt

/-! ## The patched text -/

/-- What a patched text keeps of the tokens of its source. -/
structure Spares (src : List Char) (ts : List Token) (edits : List Edit) (out : List Char) :
    Prop where
  /-- The patched text comes of the source by edits. -/
  splices : Splices 0 src edits out
  /-- The edits put in the guard and take out lines with the call of the handler. -/
  mem_edits_iff : ∀ e, e ∈ edits ↔ DefaultEdit src e
  /-- A string or regular expression stays unless the guard is put into it. -/
  quoted : ∀ t ∈ ts, t.kind = .str ∨ t.kind = .regex →
    (t.StaysIn src edits out ↔ ∀ n, GuardsAt src n → ¬ t.Surrounds n)
  /-- A part of a template literal stays unless the guard is put into it or one of its own lines is
  taken for a line with the call of the handler. -/
  template : ∀ t ∈ ts, t.kind = .template ∨ t.kind = .templateHead →
    (t.StaysIn src edits out ↔ (∀ n, GuardsAt src n → ¬ t.Surrounds n) ∧
      ∀ l ∈ lines t.text.toList, isTrapLine l = false)
  /-- A call that goes on with a dot stays unless it stands alone on its line. -/
  chained : ∀ name opening closing, ChainedCall ts name opening closing →
    ((∀ t ∈ [name, opening, closing], t.StaysIn src edits out) ↔ ¬ StandsAlone src name)

section Patched

variable {src : String} {ts : List Token} {edits : List Edit} {out : List Char} {t : Token}

/-- Which literals stay. -/
theorem staysIn_literal_iff (hts : tokenize src = .ok ts) (ht : t ∈ ts)
    (hkind : t.kind ∈ Lexer.literalKinds) (h : Splices 0 src.toList edits out)
    (hedits : ∀ e, e ∈ edits ↔ DefaultEdit src.toList e) :
    t.StaysIn src.toList edits out ↔ (∀ n, GuardsAt src.toList n → ¬ t.Surrounds n) ∧
      ∀ l ∈ lines t.text.toList, isTrapLine l = false := by
  have hlit := Lexer.isLiteral_of_tokenize hts ht hkind
  have hstands := Lexer.standsAt_of_tokenize hts ht
  rw [Token.staysIn_iff h hstands]
  simp only [hedits]
  rw [forall_defaultEdit_apart_iff]
  obtain ⟨before, after, hsrc, hstart⟩ := hstands
  have hstop : utf8Width (before ++ t.text.toList) = t.stop := Token.utf8Width_append_text hstart
  have hlines := @forall_trapEdits_apart_iff _ _ before after hlit
  rw [hstop, hstart, ← hsrc] at hlines
  rw [hlines]

/-- Which calls of the handler stay. -/
theorem staysIn_chained_iff (hts : tokenize src = .ok ts) {name opening closing : Token}
    (hcall : ChainedCall ts name opening closing) (h : Splices 0 src.toList edits out)
    (hedits : ∀ e, e ∈ edits ↔ DefaultEdit src.toList e) :
    (∀ t ∈ [name, opening, closing], t.StaysIn src.toList edits out) ↔
      ¬ StandsAlone src.toList name := by
  obtain ⟨before, gap₁, gap₂, gap₃, d, after, hat⟩ := hcall.exists_callAt hts
  have hmem : ∀ t ∈ [name, opening, closing], t ∈ ts := by
    obtain ⟨earlier, dot, later, rfl, -⟩ := hcall.exists_dot
    intro t ht
    simp only [List.mem_cons, List.not_mem_nil, or_false] at ht
    rcases ht with rfl | rfl | rfl <;> simp
  -- the name is a whole word of the source
  have hmaximal : ∀ c ∈ (gap₁ ++ '(' :: (gap₂ ++ ')' :: (gap₃ ++ d :: after))).head?,
      Lexer.isIdentPart c = false := by
    have hname := hcall.name
    simp only [Token.isWord, Bool.and_eq_true, beq_iff_eq] at hname
    have hchars : name.text.toList = trapName := by
      rw [hname.2]
      rfl
    refine Lexer.ident_maximal hts (hmem name List.mem_cons_self) hname.1 ?_ hat.starts.1
    rw [hchars]
    exact hat.src_eq
  rw [← hat.forall_apart_iff hmaximal]
  refine forall₂_congr fun t ht => ?_
  rw [Token.staysIn_iff h (Lexer.standsAt_of_tokenize hts (hmem t ht))]
  simp only [hedits]

variable {ε : Type}

/-- What the default patches keep: literals into which the guard is not put and of which no line is
taken for a call of the handler, and calls that go on with a dot and do not stand alone on a
line. -/
theorem applyAll_defaults_spares (hts : tokenize src = .ok ts) :
    ∃ out outcomes edits, (applyAll defaults src.toList : Logged ε _).result = .ok (out, outcomes) ∧
      Spares src.toList ts edits out := by
  obtain ⟨edits, hedits, hsplices⟩ := exists_defaultEdits src.toList
  refine ⟨_, _, edits, result_applyAll_defaults src.toList, hsplices, hedits, ?_, ?_, ?_⟩
  · intro t ht hkind
    have hmem : t.kind ∈ Lexer.literalKinds := by
      rcases hkind with h | h <;> rw [h] <;> decide
    have hlines := isTrapLine_of_mem_lines (Lexer.isLiteral_of_tokenize hts ht hmem) hkind
    rw [staysIn_literal_iff hts ht hmem hsplices hedits]
    exact and_iff_left hlines
  · intro t ht hkind
    have hmem : t.kind ∈ Lexer.literalKinds := by
      rcases hkind with h | h <;> rw [h] <;> decide
    exact staysIn_literal_iff hts ht hmem hsplices hedits
  · intro name opening closing hcall
    exact staysIn_chained_iff hts hcall hsplices hedits

end Patched

/-- A call that goes on in the same line, and a line of a template literal that is not taken for a
call. -/
theorem applyAll_defaults_spares_same_line :
    tokenize "trapUnhandledErrors().then(`a\n trapUnhandledErrors() b`);" =
        .ok [⟨.ident, 0, "trapUnhandledErrors"⟩, ⟨.punct, 19, "("⟩, ⟨.punct, 20, ")"⟩,
          ⟨.punct, 21, "."⟩, ⟨.ident, 22, "then"⟩, ⟨.punct, 26, "("⟩,
          ⟨.template, 27, "`a\n trapUnhandledErrors() b`"⟩, ⟨.punct, 55, ")"⟩,
          ⟨.punct, 56, ";"⟩] ∧
      ∃ out outcomes edits,
        (applyAll defaults "trapUnhandledErrors().then(`a\n trapUnhandledErrors() b`);".toList :
          Logged Empty _).result = .ok (out, outcomes) ∧
        Spares "trapUnhandledErrors().then(`a\n trapUnhandledErrors() b`);".toList
          [⟨.ident, 0, "trapUnhandledErrors"⟩, ⟨.punct, 19, "("⟩, ⟨.punct, 20, ")"⟩,
            ⟨.punct, 21, "."⟩, ⟨.ident, 22, "then"⟩, ⟨.punct, 26, "("⟩,
            ⟨.template, 27, "`a\n trapUnhandledErrors() b`"⟩, ⟨.punct, 55, ")"⟩,
            ⟨.punct, 56, ";"⟩] edits out := by
  have h : tokenize "trapUnhandledErrors().then(`a\n trapUnhandledErrors() b`);" =
      .ok [⟨.ident, 0, "trapUnhandledErrors"⟩, ⟨.punct, 19, "("⟩, ⟨.punct, 20, ")"⟩,
        ⟨.punct, 21, "."⟩, ⟨.ident, 22, "then"⟩, ⟨.punct, 26, "("⟩,
        ⟨.template, 27, "`a\n trapUnhandledErrors() b`"⟩, ⟨.punct, 55, ")"⟩,
        ⟨.punct, 56, ";"⟩] := by decide +kernel
  exact ⟨h, applyAll_defaults_spares h⟩

/-- A call that goes on in the next line is taken out. -/
theorem applyAll_defaults_takes_chained_call :
    ∃ name opening closing ts out outcomes,
      tokenize "trapUnhandledErrors()\n  .then(report);\n" = .ok ts ∧
      ChainedCall ts name opening closing ∧
      (applyAll defaults "trapUnhandledErrors()\n  .then(report);\n".toList :
        Logged Empty _).result = .ok (out, outcomes) ∧
      out = "  .then(report);\n".toList ∧ ¬ name.text.toList <:+: out := by
  have h : tokenize "trapUnhandledErrors()\n  .then(report);\n" =
      .ok ([] ++ ⟨.ident, 0, "trapUnhandledErrors"⟩ :: ⟨.punct, 19, "("⟩ :: ⟨.punct, 20, ")"⟩ ::
        ⟨.punct, 24, "."⟩ :: [⟨.ident, 25, "then"⟩, ⟨.punct, 29, "("⟩, ⟨.ident, 30, "report"⟩,
          ⟨.punct, 36, ")"⟩, ⟨.punct, 37, ";"⟩]) := by decide +kernel
  have hout : (removeErrorTrap.apply (guardServe.apply
      "trapUnhandledErrors()\n  .then(report);\n".toList).1).1 = "  .then(report);\n".toList := by
    decide +kernel
  refine ⟨_, _, _, _, _, _, h, ⟨⟨_, _, _, rfl, .inl rfl⟩, rfl, rfl, rfl⟩,
    result_applyAll_defaults _, hout, ?_⟩
  rw [hout, ← containsText_iff]
  decide

end Patch

end EdgeBundle
