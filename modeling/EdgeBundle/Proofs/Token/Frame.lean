import EdgeBundle.Proofs.Token.Brackets
import EdgeBundle.Proofs.Token.Template
import Mathlib.Data.List.Forall2

/-!
# Runs inside other brackets

What the lexer reads hangs on the tokens before it by little: by what the last token says about a
slash or parenthesis, and by the braces and parentheses that are open. A part of a source whose
brackets are nested and whose template literals are its own never looks below those that it opens,
so it is read alike inside any others.

## Main definitions

* `SameView`: contexts that say the same about a slash or parenthesis that comes next.
* `Alike`: contexts that say the same about all that comes next.
* `Framed`: contexts that agree but for what is open around a part of a source.
* `Moved`: the same tokens from another place on.

## Main statements

* `Framed.push`: one token keeps contexts framed.
* `Scans.exists_of_framed`: a run from another context with other brackets around it.
* `Scans.exists_of_nested`: the same for a nested part that starts with a word.
* `Scans.exists_of_alike`: a run from a context that is alike.
* `Scans.exists_of_sameView`: a run from another context with the same brackets around it.
* `Scans.ownTemplates_eq`: a run goes on with template literals only that are open.
-/

namespace EdgeBundle

/-! ## Tokens that are read alike -/

/-- The tokens are of the same class, and their texts are the same unless they are template text. -/
structure Token.ReadsAs (t t' : Token) : Prop where
  /-- They are of the same class. -/
  kind : t.kind = t'.kind
  /-- They have the same text. -/
  text : t.kind ≠ .template → t.kind ≠ .templateHead → t.text = t'.text

namespace Token.ReadsAs

variable {t t' : Token}

theorem symm (h : t.ReadsAs t') : t'.ReadsAs t where
  kind := h.kind.symm
  text htemplate hhead := (h.text (h.kind ▸ htemplate) (h.kind ▸ hhead)).symm

theorem isPunct_eq (h : t.ReadsAs t') (p : String) : t.isPunct p = t'.isPunct p := by
  rw [Token.isPunct, Token.isPunct, ← h.kind]
  cases hkind : t.kind with
  | punct => rw [h.text (by simp [hkind]) (by simp [hkind])]
  | _ => rfl

theorem isWord_eq (h : t.ReadsAs t') (w : String) : t.isWord w = t'.isWord w := by
  rw [Token.isWord, Token.isWord, ← h.kind]
  cases hkind : t.kind with
  | ident => rw [h.text (by simp [hkind]) (by simp [hkind])]
  | _ => rfl

end Token.ReadsAs

/-- The tokens are read alike and stand on the same line of their sources. -/
structure Token.SameLine (src src' : List Char) (t t' : Token) : Prop where
  /-- They are read alike. -/
  readsAs : t.ReadsAs t'
  /-- They stand on the same line. -/
  line : lineAt src t.start = lineAt src' t'.start

theorem Token.SameLine.symm {src src' : List Char} {t t' : Token} (h : t.SameLine src src' t') :
    t'.SameLine src' src t where
  readsAs := h.readsAs.symm
  line := h.line.symm

namespace Lexer

/-! ## The same view -/

/-- The contexts say the same about a slash and about a parenthesis that comes next. -/
structure SameView (ctx ctx' : Context) : Prop where
  /-- A slash starts a regular expression in both or in none. -/
  allowsRegex : ctx.allowsRegex = ctx'.allowsRegex
  /-- A parenthesis opens the head of a statement in both or in none. -/
  opensHead : ctx.opensHead = ctx'.opensHead
  /-- The last token is `for` in both or in none. -/
  afterFor : (ctx.tokens.head?.any fun t => t.isWord "for") =
    ctx'.tokens.head?.any fun t => t.isWord "for"

/-- What a token says about the next one hangs on the context only if it is `await` or a closing
parenthesis. -/
theorem SameView.of_push {ctx ctx' : Context} {t : Token} (start : Nat)
    (hawait : t.isWord "await" = true → (ctx.tokens.head?.any fun t => t.isWord "for") =
      ctx'.tokens.head?.any fun t => t.isWord "for")
    (hparens : t.isPunct ")" = true → ctx.parens.headD false = ctx'.parens.headD false) :
    SameView (ctx.push t) (ctx'.push { t with start }) where
  allowsRegex := by
    have hsame : ({ t with start } : Token).isPunct ")" = t.isPunct ")" := rfl
    simp only [Context.allowsRegex, Context.push, hsame]
    by_cases hclose : t.isPunct ")" = true
    · rw [if_pos hclose, if_pos hclose, hparens hclose]
    · cases hkind : t.kind with
      | punct =>
        have htext : ¬ (t.text == ")") = true := fun h => hclose (by simp [Token.isPunct, hkind, h])
        simp only [if_neg htext]
      | _ => rfl
  opensHead := by
    have hsame : ({ t with start } : Token).isWord "await" = t.isWord "await" := rfl
    simp only [Context.opensHead, Context.push, hsame]
    split
    next hword => exact hawait hword
    next => rfl
  afterFor := rfl

/-- What is read next hangs on the context by whether a slash starts a regular expression and
whether a brace ends a substitution. -/
theorem LexemeAt.of_sameView {ctx ctx' : Context} {c : Char} {cs : List Char} {l : Lexeme}
    (hl : LexemeAt ctx c cs l) (hview : SameView ctx ctx')
    (hclose : c = '\x7d' → ctx.closesSubstitution = ctx'.closesSubstitution) :
    LexemeAt ctx' c cs l := by
  have hcloses : (c = '\x7d' ∧ ctx.closesSubstitution = true) ↔
      (c = '\x7d' ∧ ctx'.closesSubstitution = true) :=
    and_congr_right fun hc => by rw [hclose hc]
  cases hl with
  | blank hc => exact .blank hc
  | lineComment hc hd => exact .lineComment hc hd
  | blockComment hc hd hn => exact .blockComment hc hd hn
  | str hc hn => exact .str hc hn
  | template hc hn => exact .template (hc.imp_right hcloses.mp) hn
  | regex hc hd hctx hn => exact .regex hc hd (hview.allowsRegex ▸ hctx) hn
  | number hc => exact .number hc
  | ident hc => exact .ident hc
  | punct hc =>
    obtain ⟨hblank, hquote, hclosing, hdivides, hdigit, hident⟩ := hc
    rw [hcloses] at hclosing
    rw [hview.allowsRegex] at hdivides
    exact .punct ⟨hblank, hquote, hclosing, hdivides, hdigit, hident⟩

/-- What starts with no slash, or with that of a comment, hangs on the context only by whether a
brace ends a substitution. -/
theorem LexemeAt.of_ne_slash {ctx ctx' : Context} {c : Char} {cs : List Char} {l : Lexeme}
    (hl : LexemeAt ctx c cs l) (hslash : c = '/' → l.kind = none)
    (hclose : ctx.closesSubstitution = ctx'.closesSubstitution) : LexemeAt ctx' c cs l := by
  cases hl with
  | blank hc => exact .blank hc
  | lineComment hc hd => exact .lineComment hc hd
  | blockComment hc hd hn => exact .blockComment hc hd hn
  | str hc hn => exact .str hc hn
  | template hc hn => exact .template (hclose ▸ hc) hn
  | regex hc => cases hslash hc
  | number hc => exact .number hc
  | ident hc => exact .ident hc
  | punct hc =>
    obtain ⟨hblank, hquote, hclosing, -, hdigit, hident⟩ := hc
    exact .punct ⟨hblank, hquote, hclose ▸ hclosing, fun hc => absurd (hslash hc) (by simp), hdigit,
      hident⟩

/-- The stacks have the same entries, where missing ones count as `d`. -/
def SamePadded {α : Type} (d : α) (xs ys : List α) : Prop :=
  ∀ i, xs.getD i d = ys.getD i d

namespace SamePadded

variable {α : Type} {d : α} {xs ys : List α}

theorem cons (h : SamePadded d xs ys) (x : α) : SamePadded d (x :: xs) (x :: ys) := by
  intro i
  cases i with
  | zero => rfl
  | succ i => exact h i

theorem tail (h : SamePadded d xs ys) : SamePadded d xs.tail ys.tail := by
  have htail (zs : List α) (i : Nat) : zs.tail.getD i d = zs.getD (i + 1) d := by
    cases zs <;> rfl
  intro i
  rw [htail, htail]
  exact h (i + 1)

theorem headD_eq (h : SamePadded d xs ys) : xs.headD d = ys.headD d := by
  have hhead (zs : List α) : zs.headD d = zs.getD 0 d := by
    cases zs <;> rfl
  rw [hhead, hhead]
  exact h 0

end SamePadded

/-- The contexts say the same about all that comes next. A bracket that is not there counts as one
that no closing bracket has to look at. -/
structure Alike (ctx ctx' : Context) : Prop where
  /-- They say the same about a slash and about a parenthesis. -/
  view : SameView ctx ctx'
  /-- The same braces end a substitution. -/
  braces : SamePadded .block ctx.braces ctx'.braces
  /-- The same parentheses end the head of a statement. -/
  parens : SamePadded false ctx.parens ctx'.parens

namespace Alike

variable {ctx ctx' : Context}

theorem refl (ctx : Context) : Alike ctx ctx :=
  ⟨⟨rfl, rfl, rfl⟩, fun _ => rfl, fun _ => rfl⟩

theorem symm (h : Alike ctx ctx') : Alike ctx' ctx where
  view := ⟨h.view.allowsRegex.symm, h.view.opensHead.symm, h.view.afterFor.symm⟩
  braces := fun i => (h.braces i).symm
  parens := fun i => (h.parens i).symm

theorem trans {ctx'' : Context} (h : Alike ctx ctx') (h' : Alike ctx' ctx'') : Alike ctx ctx'' where
  view := ⟨h.view.allowsRegex.trans h'.view.allowsRegex, h.view.opensHead.trans h'.view.opensHead,
    h.view.afterFor.trans h'.view.afterFor⟩
  braces := fun i => (h.braces i).trans (h'.braces i)
  parens := fun i => (h.parens i).trans (h'.parens i)

theorem closesSubstitution_eq (h : Alike ctx ctx') :
    ctx.closesSubstitution = ctx'.closesSubstitution := by
  have hhead (ctx : Context) :
      ctx.closesSubstitution = (ctx.braces.headD .block == .substitution) := by
    rw [Context.closesSubstitution]
    cases ctx.braces <;> rfl
  rw [hhead, hhead, h.braces.headD_eq]

/-- One token makes contexts alike that are alike but for a slash. -/
theorem push_of_opensHead (hfor : (ctx.tokens.head?.any fun t => t.isWord "for") =
      ctx'.tokens.head?.any fun t => t.isWord "for")
    (hhead : ctx.opensHead = ctx'.opensHead) (hbraces : SamePadded .block ctx.braces ctx'.braces)
    (hparens : SamePadded false ctx.parens ctx'.parens) (t : Token) (start : Nat) :
    Alike (ctx.push t) (ctx'.push { t with start }) where
  view := .of_push start (fun _ => hfor) fun _ => hparens.headD_eq
  braces := by
    show SamePadded _ (ctx.bracesAfter t) (ctx'.bracesAfter { t with start })
    simp only [Context.bracesAfter]
    -- what a token puts on the stacks or takes from them does not hang on where it starts
    cases t.kind with
    | template =>
      dsimp only
      split
      · exact hbraces.tail
      · exact hbraces
    | templateHead =>
      dsimp only
      split
      · exact hbraces.tail.cons _
      · exact hbraces.cons _
    | punct =>
      dsimp only
      split
      · exact hbraces.cons _
      split
      · exact hbraces.tail
      · exact hbraces
    | _ => exact hbraces
  parens := by
    show SamePadded _ (if t.isPunct "(" then ctx.opensHead :: ctx.parens
        else if t.isPunct ")" then ctx.parens.tail else ctx.parens)
      (if t.isPunct "(" then ctx'.opensHead :: ctx'.parens
        else if t.isPunct ")" then ctx'.parens.tail else ctx'.parens)
    rw [hhead]
    split
    · exact hparens.cons _
    split
    · exact hparens.tail
    · exact hparens

/-- One token keeps contexts alike. -/
theorem push (h : Alike ctx ctx') (t : Token) (start : Nat) :
    Alike (ctx.push t) (ctx'.push { t with start }) :=
  push_of_opensHead h.view.afterFor h.view.opensHead h.braces h.parens t start

end Alike

/-- Tokens that are read alike keep contexts alike, if their texts both start with a brace or
neither. -/
theorem Alike.push_of_readsAs {ctx ctx' : Context} {t t' : Token} (h : Alike ctx ctx')
    (ht : t.ReadsAs t') (hhead : t.text.toList.head? = t'.text.toList.head?) :
    Alike (ctx.push t) (ctx'.push t') := by
  by_cases hkind : t.kind = .template ∨ t.kind = .templateHead
  · have hident : (t.kind == .ident) = false := by
      rcases hkind with h | h <;> rw [h] <;> rfl
    have hword : ∀ w, t.isWord w = false :=
      Token.isWord_eq_false (by rcases hkind with h | h <;> simp [h])
    have hpunct : ∀ p, t.isPunct p = false :=
      Token.isPunct_eq_false (by rcases hkind with h | h <;> simp [h])
    have hparens : SamePadded false (ctx.push t).parens (ctx'.push t').parens := by
      simpa [Context.push, ← ht.isPunct_eq, hpunct] using h.parens
    refine ⟨⟨?_, ?_, ?_⟩, ?_, hparens⟩
    · rcases hkind with h | h <;> simp [Context.allowsRegex, Context.push, ← ht.kind, h]
    · simp [Context.opensHead, Context.push, ← ht.kind, ← ht.isWord_eq, hword, hident]
    · simp [Context.push, ← ht.isWord_eq, hword]
    -- only braces hang on template text, and by its first character
    · have htail : SamePadded .block
          (if t.text.toList.head? == some '\x7d' then ctx.braces.tail else ctx.braces)
          (if t.text.toList.head? == some '\x7d' then ctx'.braces.tail else ctx'.braces) := by
        split
        · exact h.braces.tail
        · exact h.braces
      show SamePadded _ (ctx.bracesAfter t) (ctx'.bracesAfter t')
      rw [Context.bracesAfter, Context.bracesAfter, ← ht.kind, ← hhead]
      rcases hkind with h | h <;> rw [h]
      · exact htail
      · exact htail.cons _
  · rw [not_or] at hkind
    have hsame : t' = { t with start := t'.start } := by
      obtain ⟨kind, start, text⟩ := t
      obtain ⟨kind', start', text'⟩ := t'
      obtain rfl : kind = kind' := ht.kind
      obtain rfl : text = text' := ht.text hkind.1 hkind.2
      rfl
    rw [hsame]
    exact h.push t _

/-- A run from a context that is alike. -/
theorem Scans.exists_of_alike {ctx ctx' : Context} {offset : Nat} {cs : List Char}
    {ts : List Token} (h : Scans ctx offset cs ts) (halike : Alike ctx ctx') (offset' : Nat) :
    ∃ moved, Scans ctx' offset' cs moved ∧ Alike (ctx.after ts) (ctx'.after moved) ∧
      moved.map Token.unplaced = ts.map Token.unplaced := by
  induction h generalizing ctx' offset' with
  | done => exact ⟨[], .done, halike, rfl⟩
  | gap hl _ ih =>
    obtain ⟨moved, hrun, hafter, hmoved⟩ := ih halike _
    have hl' := hl.of_sameView halike.view fun _ => halike.closesSubstitution_eq
    exact ⟨moved, .gap hl' hrun, hafter, hmoved⟩
  | @token ctx offset c cs kind more t ts hl ht _ ih =>
    subst ht
    obtain ⟨moved, hrun, hafter, hmoved⟩ := ih (halike.push _ offset') _
    have hl' := hl.of_sameView halike.view fun _ => halike.closesSubstitution_eq
    refine ⟨_, .token hl' rfl hrun, hafter, ?_⟩
    rw [List.map_cons, List.map_cons, hmoved]
    rfl

/-- A text is put together again from what is before a lexeme, the lexeme and what follows. -/
theorem append_take_append_drop (pre : List Char) (c : Char) (cs : List Char) (more : Nat) :
    pre ++ (c :: cs.take more) ++ cs.drop more = pre ++ c :: cs := by
  rw [List.append_assoc, List.cons_append, List.take_append_drop]

/-- The same characters are on the same lines after texts with as many lines. -/
theorem lineAt_append_of_count {pre pre' : List Char} (hlines : pre.count '\n' = pre'.count '\n')
    (rest rest' : List Char) :
    lineAt (pre ++ rest) (utf8Width pre) = lineAt (pre' ++ rest') (utf8Width pre') := by
  rw [lineAt, lineAt, takeBytes_append, takeBytes_append, hlines]

/-- A run from a context that is alike, after a text with as many lines. -/
theorem Scans.exists_sameLine {ctx ctx' : Context} {offset : Nat} {cs : List Char}
    {ts : List Token} (h : Scans ctx offset cs ts) (halike : Alike ctx ctx') {pre pre' : List Char}
    (hoffset : offset = utf8Width pre) (hlines : pre.count '\n' = pre'.count '\n') :
    ∃ moved, Scans ctx' (utf8Width pre') cs moved ∧
      List.Forall₂ (Token.SameLine (pre ++ cs) (pre' ++ cs)) ts moved := by
  -- on the run: each lexeme goes from the text to both texts before it, which keep as many lines
  induction h generalizing ctx' pre pre' with
  | done => exact ⟨[], .done, .nil⟩
  | @gap ctx offset c cs more ts hl _ ih =>
    obtain ⟨moved, hrun, hmoved⟩ := @ih ctx' halike (pre ++ (c :: cs.take more))
      (pre' ++ (c :: cs.take more)) (by rw [hoffset, utf8Width_append])
      (by rw [List.count_append, List.count_append, hlines])
    rw [append_take_append_drop, append_take_append_drop] at hmoved
    rw [utf8Width_append] at hrun
    have hl' := hl.of_sameView halike.view fun _ => halike.closesSubstitution_eq
    exact ⟨moved, .gap hl' hrun, hmoved⟩
  | @token ctx offset c cs kind more t ts hl ht _ ih =>
    subst ht hoffset
    obtain ⟨moved, hrun, hmoved⟩ := @ih _ (halike.push _ (utf8Width pre'))
      (pre ++ (c :: cs.take more)) (pre' ++ (c :: cs.take more)) (by rw [utf8Width_append])
      (by rw [List.count_append, List.count_append, hlines])
    rw [append_take_append_drop, append_take_append_drop] at hmoved
    rw [utf8Width_append] at hrun
    have hl' := hl.of_sameView halike.view fun _ => halike.closesSubstitution_eq
    exact ⟨_, .token hl' rfl hrun,
      .cons ⟨⟨rfl, fun _ _ => rfl⟩, lineAt_append_of_count hlines _ _⟩ hmoved⟩

/-- A run from another context with the same brackets around it. -/
theorem Scans.exists_of_sameView {ctx ctx' : Context} {offset : Nat} {cs : List Char}
    {ts : List Token} (h : Scans ctx offset cs ts) (hview : SameView ctx ctx')
    (hbraces : ctx.braces = ctx'.braces) (hparens : ctx.parens = ctx'.parens) (offset' : Nat) :
    ∃ moved, Scans ctx' offset' cs moved ∧ moved.map Token.unplaced = ts.map Token.unplaced := by
  have halike : Alike ctx ctx' :=
    ⟨hview, fun i => by rw [hbraces], fun i => by rw [hparens]⟩
  obtain ⟨moved, hrun, -, hmoved⟩ := h.exists_of_alike halike offset'
  exact ⟨moved, hrun, hmoved⟩

/-! ## Brackets of a part of a source -/

theorem closer?_eq_some_iff {t : Token} :
    (t.closer? = some ")" ↔ t.isPunct "(" = true) ∧
      (t.closer? = some "\x7d" ↔ t.isPunct "\x7b" = true) := by
  unfold Token.closer?
  split
  next hopen => simp_all [Token.isPunct_iff]
  split
  next hopen => simp_all [Token.isPunct_iff]
  split
  next hopen => simp_all [Token.isPunct_iff]
  next => simp_all

/-- A token that opens a bracket closes none. -/
theorem isPunct_eq_false_of_closer {t : Token} {close close' : String} (h : t.closer? = some close)
    (hclose : close' ∈ [")", "\x7d"]) : t.isPunct close' = false := by
  refine Bool.eq_false_iff.mpr fun hpunct => ?_
  obtain ⟨-, rfl⟩ := Token.isPunct_iff.mp hpunct
  have hnot : ∀ p ∈ [")", "\x7d"], p ∉ ["(", "[", "\x7b"] := by decide
  refine hnot _ hclose ?_
  unfold Token.closer? at h
  split at h
  next hopen => simp [(Token.isPunct_iff.mp hopen).2]
  split at h
  next hopen => simp [(Token.isPunct_iff.mp hopen).2]
  split at h
  next hopen => simp [(Token.isPunct_iff.mp hopen).2]
  next => cases h

/-- A token changes the number of brackets that are awaited only if it opens or closes one. -/
theorem count_awaitedAfter {t : Token} {stack stack' : List String} {close : String}
    (hclose : close ∈ [")", "\x7d"]) (h : t.awaitedAfter stack = some stack') :
    stack'.count close + (if t.isPunct close = true then 1 else 0) =
      stack.count close + (if t.closer? = some close then 1 else 0) := by
  unfold Token.awaitedAfter at h
  split at h
  next closer hcloser =>
    cases h
    rw [isPunct_eq_false_of_closer hcloser hclose, hcloser, List.count_cons]
    simp
  next hcloser =>
    have hopens : ¬ t.closer? = some close := by rw [hcloser]; nofun
    rw [if_neg hopens]
    split at h
    next hisCloser =>
      -- the token is a closing bracket, and the next one that is awaited
      have hkind : t.kind = .punct := by
        simp only [Token.isCloser, Bool.or_eq_true, Token.isPunct_iff] at hisCloser
        rcases hisCloser with (h | h) | h <;> exact h.1
      cases stack with
      | nil => cases h
      | cons next outer =>
        simp only at h
        split at h
        next htext =>
          cases h
          simp only [Token.isPunct_iff, hkind, htext, List.count_cons, beq_iff_eq, true_and,
            Nat.add_zero]
        next => cases h
    next hisCloser =>
      cases h
      have hnot : ¬ t.isPunct close = true := by
        intro hpunct
        simp only [List.mem_cons, List.not_mem_nil, or_false] at hclose
        rcases hclose with rfl | rfl <;> simp [Token.isCloser, hpunct] at hisCloser
      rw [if_neg hnot]

/-- What is open around a part of a source in two contexts. -/
structure Outer where
  /-- Braces in the one context. -/
  braces : List Brace
  /-- Parentheses in the one context. -/
  parens : List Bool
  /-- Braces in the other context. -/
  braces' : List Brace
  /-- Parentheses in the other context. -/
  parens' : List Bool

/-- The contexts say the same but for what is open around a part of a source, which itself leaves
the closing brackets of `stack` to come and `count` template literals open. -/
structure Framed (o : Outer) (stack : List String) (count : Nat) (ctx ctx' : Context) : Prop where
  /-- They say the same about what comes next. -/
  view : SameView ctx ctx'
  /-- They have the same braces inside. -/
  braces : ∃ inner, ctx.braces = inner ++ o.braces ∧ ctx'.braces = inner ++ o.braces' ∧
    inner.count .block = stack.count "\x7d" ∧ inner.count .substitution = count
  /-- They have the same parentheses inside. -/
  parens : ∃ inner, ctx.parens = inner ++ o.parens ∧ ctx'.parens = inner ++ o.parens' ∧
    inner.length = stack.count ")"

namespace Framed

variable {o : Outer} {stack stack' : List String} {count count' : Nat} {ctx ctx' : Context}
  {t : Token}

/-- Parentheses stay framed. -/
theorem push_parens (h : Framed o stack count ctx ctx') (ht : t.awaitedAfter stack = some stack')
    (start : Nat) :
    (t.isPunct ")" = true → ctx.parens.headD false = ctx'.parens.headD false) ∧
      ∃ inner, (ctx.push t).parens = inner ++ o.parens ∧
        (ctx'.push { t with start }).parens = inner ++ o.parens' ∧
        inner.length = stack'.count ")" := by
  obtain ⟨inner, hleft, hright, hlength⟩ := h.parens
  have hcount := @count_awaitedAfter t stack stack' ")" (by decide) ht
  change _ ∧ ∃ inner, _ ∧ (ctx'.push t).parens = _ ∧ _
  simp only [closer?_eq_some_iff.1] at hcount
  simp only [Context.push]
  by_cases hopen : t.isPunct "(" = true
  -- one more parenthesis is open inside
  · have hclose : ¬ t.isPunct ")" = true := by
      rw [isPunct_eq_false_of_closer (closer?_eq_some_iff.1.mpr hopen) (by decide)]
      decide
    rw [if_neg hclose, if_pos hopen] at hcount
    refine ⟨fun h => absurd h hclose, ctx.opensHead :: inner, ?_, ?_, ?_⟩
    · rw [if_pos hopen, hleft, List.cons_append]
    · rw [if_pos hopen, hright, List.cons_append, h.view.opensHead]
    · rw [List.length_cons]
      omega
  rw [if_neg hopen] at hcount
  by_cases hclose : t.isPunct ")" = true
  · rw [if_pos hclose] at hcount
    cases inner with
    -- the parenthesis that is closed has been awaited, so it is one of the inner ones
    | nil =>
      rw [List.length_nil] at hlength
      omega
    | cons head inner =>
      rw [List.length_cons] at hlength
      refine ⟨fun _ => by rw [hleft, hright]; rfl, inner, ?_, ?_, by omega⟩
      · rw [if_neg hopen, if_pos hclose, hleft, List.cons_append, List.tail_cons]
      · rw [if_neg hopen, if_pos hclose, hright, List.cons_append, List.tail_cons]
  · rw [if_neg hclose] at hcount
    refine ⟨fun h => absurd h hclose, inner, ?_, ?_, by omega⟩
    · rw [if_neg hopen, if_neg hclose, hleft]
    · rw [if_neg hopen, if_neg hclose, hright]

/-- Where a brace comes next that closes a bracket or goes on with a template literal of the part
itself, there is a brace inside. -/
theorem exists_inner_cons (h : Framed o stack count ctx ctx')
    (hpos : stack.count "\x7d" ≠ 0 ∨ count ≠ 0) :
    ∃ b inner, ctx.braces = b :: (inner ++ o.braces) ∧ ctx'.braces = b :: (inner ++ o.braces') ∧
      (b :: inner).count .block = stack.count "\x7d" ∧
      (b :: inner).count .substitution = count := by
  obtain ⟨inner, hleft, hright, hblock, hsubst⟩ := h.braces
  cases inner with
  | nil =>
    rw [← hblock, ← hsubst] at hpos
    simp at hpos
  | cons b inner => exact ⟨b, inner, hleft, hright, hblock, hsubst⟩

end Framed

theorem awaitedAfter_of_ne_punct {t : Token} (h : t.kind ≠ .punct) (stack : List String) :
    t.awaitedAfter stack = some stack := by
  simp [Token.awaitedAfter, Token.closer?, Token.isCloser, Token.isPunct_eq_false h]

/-- What starts with a closing brace is template text or the brace. -/
theorem LexemeAt.of_closing {ctx : Context} {cs : List Char} {kind : TokenKind} {more : Nat}
    (hl : LexemeAt ctx '\x7d' cs ⟨some kind, more⟩) :
    (ctx.closesSubstitution = true ∧ (kind = .template ∨ kind = .templateHead)) ∨
      (ctx.closesSubstitution = false ∧ kind = .punct ∧ more = 0) := by
  cases hl with
  | str hc => exact absurd hc (by decide)
  | template hc hn =>
    exact .inl ⟨(hc.resolve_left (by decide)).2, templateLength_kind hn⟩
  | regex hc => exact absurd hc (by decide)
  | number hc => simp at hc
  | ident hc => exact absurd hc (by decide)
  | punct hc =>
    exact .inr ⟨Bool.eq_false_iff.mpr fun h => hc.not_closing ⟨rfl, h⟩, rfl, rfl⟩

/-- Template text that does not start with a closing brace leaves no literal that was open. -/
theorem ownTemplatesAfter_of_head_ne {t : Token} {count count' : Nat}
    (hhead : t.text.toList.head? ≠ some '\x7d') (h : t.ownTemplatesAfter count = some count') :
    count' = if t.kind = .templateHead then count + 1 else count := by
  have hnot : (t.text.toList.head? == some '\x7d') = false := beq_eq_false_iff_ne.mpr hhead
  simp only [Token.ownTemplatesAfter, hnot] at h
  split at h <;> simp_all

/-- A token that starts with no closing brace only opens braces. -/
theorem bracesAfter_of_head_ne {t : Token} (hhead : t.text.toList.head? ≠ some '\x7d')
    (ctx : Context) :
    ctx.bracesAfter t = (if t.kind = .templateHead then [.substitution]
      else if t.isPunct "\x7b" = true then [.block] else []) ++ ctx.braces := by
  have hnot : (t.text.toList.head? == some '\x7d') = false := beq_eq_false_iff_ne.mpr hhead
  have hbrace : t.text ≠ "\x7d" := fun h => hhead (by rw [h]; rfl)
  unfold Context.bracesAfter
  split
  next hkind => simp [hkind, hnot, Token.isPunct]
  next hkind => simp [hkind, hnot]
  next hkind =>
    by_cases hopen : t.text = "\x7b"
    · simp [hkind, hopen, Token.isPunct]
    · simp [hkind, hopen, hbrace, Token.isPunct]
  next htemplateHead hpunct =>
    rw [if_neg htemplateHead, Token.isPunct_eq_false hpunct, if_neg Bool.false_ne_true,
      List.nil_append]

namespace Framed

variable {o : Outer} {stack stack' : List String} {count count' : Nat} {ctx ctx' : Context}
  {t : Token} {c : Char} {cs : List Char} {kind : TokenKind} {more offset : Nat}

/-- The brace that a token closes is open inside. -/
theorem push_closing (h : Framed o stack count ctx ctx')
    (hl : LexemeAt ctx '\x7d' cs ⟨some kind, more⟩)
    (ht : t = ⟨kind, offset, String.ofList ('\x7d' :: cs.take more)⟩)
    (hstack : t.awaitedAfter stack = some stack')
    (hcount : t.ownTemplatesAfter count = some count') :
    ctx.closesSubstitution = ctx'.closesSubstitution ∧
      ∃ inner, ctx.bracesAfter t = inner ++ o.braces ∧ ctx'.bracesAfter t = inner ++ o.braces' ∧
        inner.count .block = stack'.count "\x7d" ∧ inner.count .substitution = count' := by
  have hblocks := @count_awaitedAfter t stack stack' "\x7d" (by decide) hstack
  simp only [closer?_eq_some_iff.2] at hblocks
  rcases hl.of_closing with ⟨hclose, hkind⟩ | ⟨hclose, rfl, rfl⟩
  -- template text goes on with a literal, which is one of the inner ones
  · have hunchanged : stack' = stack := by
      rw [awaitedAfter_of_ne_punct (by rw [ht]; rcases hkind with rfl | rfl <;> nofun)] at hstack
      exact (Option.some.inj hstack).symm
    subst hunchanged
    have hpos : count ≠ 0 := by
      rintro rfl
      rcases hkind with rfl | rfl <;> simp [ht, Token.ownTemplatesAfter] at hcount
    obtain ⟨b, inner, hleft, hright, hblock, hsubst⟩ := h.exists_inner_cons (.inr hpos)
    obtain rfl : b = .substitution := by simpa [Context.closesSubstitution, hleft] using hclose
    obtain ⟨count, rfl⟩ := Nat.exists_eq_succ_of_ne_zero hpos
    refine ⟨by simp [Context.closesSubstitution, hleft, hright], ?_⟩
    rw [List.count_cons_of_ne (by decide)] at hblock
    rw [List.count_cons_self] at hsubst
    rcases hkind with rfl | rfl
    · refine ⟨inner, ?_, ?_, hblock, ?_⟩
      · simp [Context.bracesAfter, ht, hleft]
      · simp [Context.bracesAfter, ht, hright]
      · simp [ht, Token.ownTemplatesAfter] at hcount
        omega
    · refine ⟨.substitution :: inner, ?_, ?_, ?_, ?_⟩
      · simp [Context.bracesAfter, ht, hleft]
      · simp [Context.bracesAfter, ht, hright]
      · rw [List.count_cons_of_ne (by decide), hblock]
      · simp [ht, Token.ownTemplatesAfter] at hcount
        rw [List.count_cons_self]
        omega
  -- the brace ends a block, which is one of the inner ones
  · have hbrace : t.isPunct "\x7d" = true := by rw [ht]; rfl
    have hopen : ¬ t.isPunct "\x7b" = true := by rw [ht]; exact Bool.false_ne_true
    rw [if_pos hbrace, if_neg hopen] at hblocks
    obtain ⟨b, inner, hleft, hright, hblock, hsubst⟩ := h.exists_inner_cons (.inl (by omega))
    obtain rfl : b = .block := by
      cases b with
      | block => rfl
      | substitution => simp [Context.closesSubstitution, hleft] at hclose
    rw [List.count_cons_self] at hblock
    rw [List.count_cons_of_ne (by decide)] at hsubst
    have hunchanged : count' = count := by
      rw [ht] at hcount
      exact (Option.some.inj hcount).symm
    refine ⟨by simp [Context.closesSubstitution, hleft, hright], inner, ?_, ?_, by omega, ?_⟩
    · rw [ht, Context.bracesAfter, hleft]
      rfl
    · rw [ht, Context.bracesAfter, hright]
      rfl
    · rw [hsubst, hunchanged]

/-- A token that starts with no closing brace closes none. -/
theorem push_opening (h : Framed o stack count ctx ctx') (hhead : t.text.toList.head? ≠ some '\x7d')
    (hstack : t.awaitedAfter stack = some stack')
    (hcount : t.ownTemplatesAfter count = some count') :
    ∃ inner, ctx.bracesAfter t = inner ++ o.braces ∧ ctx'.bracesAfter t = inner ++ o.braces' ∧
      inner.count .block = stack'.count "\x7d" ∧ inner.count .substitution = count' := by
  have hblocks := @count_awaitedAfter t stack stack' "\x7d" (by decide) hstack
  simp only [closer?_eq_some_iff.2] at hblocks
  have hclose : ¬ t.isPunct "\x7d" = true := fun h =>
    hhead (by rw [(Token.isPunct_iff.mp h).2]; rfl)
  rw [if_neg hclose] at hblocks
  obtain ⟨inner, hleft, hright, hblock, hsubst⟩ := h.braces
  -- the new brace or substitution lies on top of the ones inside
  refine ⟨_, by rw [bracesAfter_of_head_ne hhead, hleft, ← List.append_assoc],
    by rw [bracesAfter_of_head_ne hhead, hright, ← List.append_assoc], ?_, ?_⟩
  · rw [List.count_append, hblock]
    by_cases hopen : t.isPunct "\x7b" = true
    · have hkind : t.kind ≠ .templateHead := by rw [(Token.isPunct_iff.mp hopen).1]; nofun
      rw [if_pos hopen] at hblocks
      rw [if_neg hkind, if_pos hopen, List.count_singleton_self]
      omega
    · rw [if_neg hopen, Nat.add_zero] at hblocks
      rw [if_neg hopen, hblocks]
      split <;> simp
  · rw [List.count_append, hsubst, ownTemplatesAfter_of_head_ne hhead hcount]
    by_cases hkind : t.kind = .templateHead
    · rw [if_pos hkind, if_pos hkind, List.count_singleton_self, Nat.add_comm]
    · rw [if_neg hkind, if_neg hkind]
      split <;> simp

/-- One token keeps the contexts framed, and it is read alike in them. -/
theorem push (h : Framed o stack count ctx ctx') (hl : LexemeAt ctx c cs ⟨some kind, more⟩)
    (ht : t = ⟨kind, offset, String.ofList (c :: cs.take more)⟩)
    (hstack : t.awaitedAfter stack = some stack') (hcount : t.ownTemplatesAfter count = some count')
    (start : Nat) :
    LexemeAt ctx' c cs ⟨some kind, more⟩ ∧
      Framed o stack' count' (ctx.push t) (ctx'.push { t with start }) := by
  have hhead : t.text.toList.head? = some c := by rw [ht, String.toList_ofList]; rfl
  obtain ⟨hparen, hparens⟩ := h.push_parens hstack start
  obtain ⟨hclose, hbraces⟩ : (c = '\x7d' → ctx.closesSubstitution = ctx'.closesSubstitution) ∧
      ∃ inner, ctx.bracesAfter t = inner ++ o.braces ∧ ctx'.bracesAfter t = inner ++ o.braces' ∧
        inner.count .block = stack'.count "\x7d" ∧ inner.count .substitution = count' := by
    by_cases hc : c = '\x7d'
    · subst hc
      obtain ⟨hclose, hbraces⟩ := h.push_closing hl ht hstack hcount
      exact ⟨fun _ => hclose, hbraces⟩
    · have hne : t.text.toList.head? ≠ some '\x7d' :=
        fun h => hc (Option.some.inj (hhead.symm.trans h))
      exact ⟨fun h => absurd h hc, h.push_opening hne hstack hcount⟩
  exact ⟨hl.of_sameView h.view hclose,
    .of_push start (fun _ => h.view.afterFor) hparen, hbraces, hparens⟩

end Framed

/-! ## Runs of a part of a source -/

/-- The same tokens read from another place on. -/
structure Moved (offset offset' : Nat) (ts moved : List Token) : Prop where
  /-- They are the same but for their places. -/
  unplaced_eq : moved.map Token.unplaced = ts.map Token.unplaced
  /-- Each is as far from the one place as from the other. -/
  start_eq : moved.map (·.start + offset) = ts.map (·.start + offset')

namespace Moved

variable {offset offset' width : Nat} {ts moved : List Token} {t : Token}

theorem nil : Moved offset offset' [] [] :=
  ⟨rfl, rfl⟩

/-- The places may be counted from further back. -/
theorem of_add (h : Moved (offset + width) (offset' + width) ts moved) :
    Moved offset offset' ts moved := by
  have hadd (us : List Token) (n : Nat) :
      us.map (·.start + (n + width)) = (us.map (·.start + n)).map (· + width) := by
    rw [List.map_map]
    exact List.map_congr_left fun _ _ => (Nat.add_assoc _ _ _).symm
  have hstart := h.start_eq
  rw [hadd, hadd] at hstart
  exact ⟨h.unplaced_eq, (List.map_inj_right fun _ _ => Nat.add_right_cancel).mp hstart⟩

/-- One more token in front. -/
theorem cons (h : Moved offset offset' ts moved) (ht : t.start = offset) :
    Moved offset offset' (t :: ts) ({ t with start := offset' } :: moved) where
  unplaced_eq := by
    rw [List.map_cons, List.map_cons, h.unplaced_eq]
    rfl
  start_eq := by rw [List.map_cons, List.map_cons, h.start_eq, ht, Nat.add_comm]

/-- The last of the tokens is the last of the others. -/
theorem exists_concat (h : Moved offset offset' (ts ++ [t]) moved) :
    ∃ init start, moved = init ++ [{ t with start }] ∧ start + offset = t.start + offset' := by
  have hsame := h.unplaced_eq
  have hstart := h.start_eq
  rw [List.map_append] at hsame hstart
  obtain ⟨init, last, rfl, -, hlast⟩ := List.map_eq_append_iff.mp hsame
  obtain ⟨u, rfl, hu⟩ := List.map_eq_singleton_iff.mp hlast
  rw [List.map_append] at hstart
  have hplace := (List.append_inj' hstart rfl).2
  refine ⟨init, u.start, ?_, List.singleton_inj.mp hplace⟩
  have hu' : u = { u.unplaced with start := u.start } := rfl
  rw [hu', hu]
  rfl

end Moved

/-- A run from another context with other brackets around it, if the tokens close brackets of their
own only and go on with template literals of their own only. -/
theorem Scans.exists_of_framed {o : Outer} {stack stack' : List String} {count count' : Nat}
    {ctx ctx' : Context} {offset : Nat} {cs : List Char} {ts : List Token}
    (h : Scans ctx offset cs ts) (hframed : Framed o stack count ctx ctx')
    (hstack : awaited stack ts = some stack') (hcount : ownTemplates count ts = some count')
    (offset' : Nat) :
    ∃ moved, Scans ctx' offset' cs moved ∧ Moved offset offset' ts moved ∧
      Framed o stack' count' (ctx.after ts) (ctx'.after moved) := by
  induction h generalizing ctx' stack count offset' with
  | done =>
    cases hstack
    cases hcount
    exact ⟨[], .done, .nil, hframed⟩
  | gap hl _ ih =>
    -- a gap starts with no brace
    have hgap := hl.of_sameView hframed.view fun hc => by subst hc; cases hl <;> contradiction
    obtain ⟨moved, hrun, hmoved, hafter⟩ := ih hframed hstack hcount _
    exact ⟨moved, .gap hgap hrun, hmoved.of_add, hafter⟩
  | @token ctx offset c cs kind more t ts hl ht _ ih =>
    obtain ⟨_, hstack, hstacks⟩ := awaited_cons_eq_some_iff.mp hstack
    obtain ⟨_, hcount, hcounts⟩ := ownTemplates_cons_eq_some_iff.mp hcount
    obtain ⟨hl', hnext⟩ := hframed.push hl ht hstack hcount offset'
    obtain ⟨moved, hrun, hmoved, hafter⟩ := ih hnext hstacks hcounts _
    subst ht
    exact ⟨_, .token hl' rfl hrun, hmoved.of_add.cons rfl, hafter⟩

/-- Around a part that starts with a word, all that is open is the outer brackets. -/
theorem Framed.of_word {ctx ctx' : Context} {t : Token} (hkind : t.kind = .ident)
    (hawait : t.text ≠ "await") (start : Nat) :
    Framed ⟨ctx.braces, ctx.parens, ctx'.braces, ctx'.parens⟩ [] 0 (ctx.push t)
      (ctx'.push { t with start }) := by
  have hword : ¬ t.isWord "await" = true := by simp [Token.isWord, hawait]
  have hpunct (p : String) : ¬ t.isPunct p = true := by simp [Token.isPunct, hkind]
  have hmoved (p : String) : ¬ ({ t with start } : Token).isPunct p = true := hpunct p
  refine ⟨.of_push start (fun h => absurd h hword) fun h => absurd h (hpunct _),
    ⟨[], ?_, ?_, rfl, rfl⟩, ⟨[], ?_, ?_, rfl⟩⟩
  · simp [Context.push, Context.bracesAfter, hkind]
  · simp [Context.push, Context.bracesAfter, hkind]
  · simp only [Context.push, if_neg (hpunct _), List.nil_append]
  · simp only [Context.push, if_neg (hmoved _), List.nil_append]

/-- Where a part has nothing open, only the outer brackets are. -/
theorem Framed.closed {o : Outer} {ctx ctx' : Context} (h : Framed o [] 0 ctx ctx') :
    ctx.braces = o.braces ∧ ctx'.braces = o.braces' ∧ ctx.parens = o.parens ∧
      ctx'.parens = o.parens' := by
  obtain ⟨inner, hleft, hright, hblock, hsubst⟩ := h.braces
  obtain rfl : inner = [] := by
    refine List.eq_nil_iff_forall_not_mem.mpr fun b hb => ?_
    cases b with
    | block => exact List.count_eq_zero.mp hblock hb
    | substitution => exact List.count_eq_zero.mp hsubst hb
  obtain ⟨inner, hleft', hright', hlength⟩ := h.parens
  obtain rfl : inner = [] := List.eq_nil_of_length_eq_zero hlength
  exact ⟨hleft, hright, hleft', hright'⟩

/-- A nested part that starts with a word is read alike anywhere, if it goes on with template
literals of its own only. -/
theorem Scans.exists_of_nested {ctx : Context} {offset count : Nat} {c : Char} {cs : List Char}
    {ts : List Token} (h : Scans ctx offset (c :: cs) ts) (hc : isIdentStart c = true)
    (hawait : c ≠ 'a') (hnested : Nested ts) (hcount : ownTemplates 0 ts = some count)
    (ctx' : Context) (offset' : Nat) :
    ∃ moved, Scans ctx' offset' (c :: cs) moved ∧ Moved offset offset' ts moved ∧
      Framed ⟨ctx.braces, ctx.parens, ctx'.braces, ctx'.parens⟩ [] count (ctx.after ts)
        (ctx'.after moved) := by
  cases h with
  | gap hl => cases hl.unique (.ident (.inr hc))
  | token hl ht hrest =>
    cases hl.unique (.ident (.inr hc))
    subst ht
    obtain ⟨_, hstack, hstacks⟩ := awaited_cons_eq_some_iff.mp hnested
    obtain ⟨_, hcount, hcounts⟩ := ownTemplates_cons_eq_some_iff.mp hcount
    -- the word opens and closes nothing
    rw [awaitedAfter_of_ne_punct (by nofun)] at hstack
    cases hstack
    cases hcount
    have hword : String.ofList (c :: cs.take (identLength cs)) ≠ "await" := by
      intro h
      have hhead := congrArg (fun s => s.toList.head?) h
      rw [String.toList_ofList] at hhead
      exact hawait (Option.some.inj hhead)
    obtain ⟨moved, hrun, hmoved, hafter⟩ :=
      hrest.exists_of_framed (.of_word rfl hword offset') hstacks hcounts _
    exact ⟨_, .token (.ident (.inr hc)) rfl hrun, hmoved.of_add.cons rfl, hafter⟩

/-- The lexer goes on with open template literals only. -/
theorem LexemeAt.ownTemplatesAfter {ctx : Context} {c : Char} {cs : List Char} {kind : TokenKind}
    {more offset : Nat} {t : Token} (hl : LexemeAt ctx c cs ⟨some kind, more⟩)
    (ht : t = ⟨kind, offset, String.ofList (c :: cs.take more)⟩) :
    t.ownTemplatesAfter ctx.openSubstitutions = some (ctx.push t).openSubstitutions := by
  suffices hown : ∃ n, t.ownTemplatesAfter ctx.openSubstitutions = some n ∧
      (n : Int) = ctx.openSubstitutions + t.templateStep by
    obtain ⟨n, hn, heq⟩ := hown
    rw [← hl.openSubstitutions_push ht, Int.natCast_inj] at heq
    rw [hn, heq]
  subst ht
  cases hl with
  | template hc hn =>
    rcases hc with rfl | ⟨rfl, hclose⟩
    -- the literal starts here
    · rcases templateLength_kind hn with rfl | rfl <;>
        simp [Token.ownTemplatesAfter, Token.templateStep]
    -- the literal goes on after a substitution
    · obtain ⟨outer, hb⟩ := Context.closesSubstitution_iff.mp hclose
      have hopen : ctx.openSubstitutions = outer.count .substitution + 1 := by
        rw [Context.openSubstitutions, hb, List.count_cons_self]
      rw [hopen]
      rcases templateLength_kind hn with rfl | rfl
      · refine ⟨outer.count .substitution, by simp [Token.ownTemplatesAfter], ?_⟩
        simp only [Token.templateStep, String.toList_ofList, List.head?_cons]
        omega
      · simp [Token.ownTemplatesAfter, Token.templateStep]
  | _ => simp [Token.ownTemplatesAfter, Token.templateStep]

/-- Along a run the literals that the tokens open and leave open are the open substitutions. -/
theorem Scans.ownTemplates_eq {ctx : Context} {offset : Nat} {cs : List Char} {ts : List Token}
    (h : Scans ctx offset cs ts) :
    ownTemplates ctx.openSubstitutions ts = some (ctx.after ts).openSubstitutions := by
  induction h with
  | done => rfl
  | gap _ _ ih => exact ih
  | token hl ht _ ih =>
    exact ownTemplates_cons_eq_some_iff.mpr ⟨_, hl.ownTemplatesAfter ht, ih⟩

end Lexer

end EdgeBundle
