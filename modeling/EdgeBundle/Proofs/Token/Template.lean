import EdgeBundle.Proofs.Token.Scan

/-!
# Open template literals

The tokens of a source tell how many template literals are open after each of them. The lexer keeps
the same number as the substitutions among its open braces. It refuses template text without an end,
but a source may end inside a substitution, and then its template literals stay open.

## Main definitions

* `openTemplates`: template literals that tokens open but do not close.
* `Context.after`: the context of the lexer after tokens.

## Main statements

* `openTemplates_eq_openSubstitutions`: the two numbers agree after every token.
* `openTemplates_eq_zero_iff`: no template literal is open at the end of an accepted source exactly
  if no substitution is.
* `tokenize_unclosed_substitution`: an accepted source that leaves a template literal open.
-/

namespace EdgeBundle

/-- What a token adds to the number of open template literals. Only the first part of a literal and
its last part after a substitution change it. -/
def Token.templateStep (t : Token) : Int :=
  match t.kind, t.text.toList.head? with
  | .templateHead, some '`' => 1
  | .template, some '}' => -1
  | _, _ => 0

namespace Lexer

/-- Template literals that the tokens open but do not close. -/
def openTemplates : List Token → Int
  | [] => 0
  | t :: ts => t.templateStep + openTemplates ts

@[simp]
theorem openTemplates_nil : openTemplates [] = 0 := rfl

@[simp]
theorem openTemplates_cons (t : Token) (ts : List Token) :
    openTemplates (t :: ts) = t.templateStep + openTemplates ts := rfl

namespace Context

/-- The context after more tokens. -/
def after (ctx : Context) (ts : List Token) : Context :=
  ts.foldl push ctx

@[simp]
theorem after_nil (ctx : Context) : ctx.after [] = ctx := rfl

@[simp]
theorem after_cons (ctx : Context) (t : Token) (ts : List Token) :
    ctx.after (t :: ts) = (ctx.push t).after ts := rfl

/-- Number of open substitutions. -/
def openSubstitutions (ctx : Context) : Nat :=
  ctx.braces.count .substitution

theorem closesSubstitution_iff {ctx : Context} :
    ctx.closesSubstitution = true ↔ ∃ outer, ctx.braces = .substitution :: outer := by
  cases h : ctx.braces <;> simp [closesSubstitution, h]

/-- Ending a block or object leaves the open substitutions as they are. -/
theorem count_tail_braces {ctx : Context} (h : ¬ ctx.closesSubstitution = true) :
    ctx.braces.tail.count .substitution = ctx.openSubstitutions := by
  rw [closesSubstitution_iff] at h
  cases hb : ctx.braces with
  | nil => simp [openSubstitutions, hb]
  | cons b outer =>
    cases b with
    | block => simp [openSubstitutions, hb]
    | substitution => exact absurd ⟨outer, hb⟩ h

end Context

/-- A token changes the open substitutions of the context as it changes the open template
literals. -/
theorem LexemeAt.openSubstitutions_push {ctx : Context} {c : Char} {cs : List Char}
    {kind : TokenKind} {more offset : Nat} {t : Token}
    (hl : LexemeAt ctx c cs ⟨some kind, more⟩)
    (ht : t = ⟨kind, offset, String.ofList (c :: cs.take more)⟩) :
    ((ctx.push t).openSubstitutions : Int) = ctx.openSubstitutions + t.templateStep := by
  subst ht
  cases hl with
  | str | regex | number | ident =>
    simp [Context.push, Context.bracesAfter, Context.openSubstitutions, Token.templateStep]
  | template hc hn =>
    rcases hc with rfl | ⟨rfl, hclose⟩
    -- the literal starts here
    · rcases templateLength_kind hn with rfl | rfl <;>
        simp [Context.push, Context.bracesAfter, Context.openSubstitutions, Token.templateStep]
    -- the literal goes on after a substitution
    · obtain ⟨outer, hb⟩ := Context.closesSubstitution_iff.mp hclose
      rcases templateLength_kind hn with rfl | rfl
      · simp only [Context.push, Context.bracesAfter, Context.openSubstitutions,
          Token.templateStep, hb, String.toList_ofList, List.head?_cons, beq_self_eq_true, if_true,
          List.tail_cons, List.count_cons_self]
        omega
      · simp [Context.push, Context.bracesAfter, Context.openSubstitutions, Token.templateStep, hb]
  | punct hc =>
    simp only [Context.push, Context.openSubstitutions, Context.bracesAfter, Token.templateStep,
      Int.add_zero, Int.natCast_inj]
    split
    · exact List.count_cons_of_ne (by decide)
    split
    next hbrace =>
      have htext : c :: cs.take (punctLength (c :: cs)) = ['}'] := by
        rw [← String.toList_ofList (l := c :: _), eq_of_beq hbrace]
        rfl
      have hclose : ¬ ctx.closesSubstitution = true := fun h =>
        hc.not_closing ⟨(List.cons.inj htext).1, h⟩
      exact Context.count_tail_braces hclose
    · rfl

/-- Along a run the open substitutions follow the open template literals. -/
theorem Scans.openSubstitutions_after {ctx : Context} {offset : Nat} {cs : List Char}
    {ts before : List Token} (h : Scans ctx offset cs ts) (hbefore : before <+: ts) :
    ((ctx.after before).openSubstitutions : Int) =
      ctx.openSubstitutions + openTemplates before := by
  induction h generalizing before with
  | done =>
    rw [List.prefix_nil.mp hbefore]
    simp
  | gap _ _ ih => exact ih hbefore
  | @token ctx _ _ _ _ _ t ts hl ht _ ih =>
    rcases List.prefix_cons_iff.mp hbefore with rfl | ⟨before, rfl, hprefix⟩
    · simp
    · rw [Context.after_cons, ih hprefix, hl.openSubstitutions_push ht, openTemplates_cons,
        Int.add_assoc]

/-- The lexer's own count of open substitutions, after any number of tokens of a source. -/
theorem openTemplates_eq_openSubstitutions {src : String} {ts before : List Token}
    (h : tokenize src = .ok ts) (hbefore : before <+: ts) :
    openTemplates before = (Context.after {} before).openSubstitutions := by
  rw [(tokenize_eq_ok_iff.mp h).openSubstitutions_after hbefore]
  simp [Context.openSubstitutions]

/-- No token of an accepted source ends a template literal that is not open, and all that are opened
are closed exactly if the source does not end inside a substitution. -/
theorem openTemplates_eq_zero_iff {src : String} {ts : List Token} (h : tokenize src = .ok ts) :
    (∀ before, before <+: ts → 0 ≤ openTemplates before) ∧
      (openTemplates ts = 0 ↔ Brace.substitution ∉ (Context.after {} ts).braces) := by
  refine ⟨fun before hbefore => ?_, ?_⟩
  · rw [openTemplates_eq_openSubstitutions h hbefore]
    exact Int.natCast_nonneg _
  · rw [openTemplates_eq_openSubstitutions h (List.prefix_refl ts), Int.natCast_eq_zero,
      Context.openSubstitutions, List.count_eq_zero]

/-- A template literal in a substitution of another one. -/
theorem openTemplates_eq_zero_iff_nested :
    tokenize "`x$\x7b`y$\x7bz\x7d`\x7dw`" =
        .ok [⟨.templateHead, 0, "`x$\x7b"⟩, ⟨.templateHead, 4, "`y$\x7b"⟩, ⟨.ident, 8, "z"⟩,
          ⟨.template, 9, "\x7d`"⟩, ⟨.template, 11, "\x7dw`"⟩] ∧
      (∀ before, before <+: [⟨.templateHead, 0, "`x$\x7b"⟩, ⟨.templateHead, 4, "`y$\x7b"⟩,
          ⟨.ident, 8, "z"⟩, ⟨.template, 9, "\x7d`"⟩, ⟨.template, 11, "\x7dw`"⟩] →
        0 ≤ openTemplates before) := by
  have h : tokenize "`x$\x7b`y$\x7bz\x7d`\x7dw`" =
      .ok [⟨.templateHead, 0, "`x$\x7b"⟩, ⟨.templateHead, 4, "`y$\x7b"⟩, ⟨.ident, 8, "z"⟩,
        ⟨.template, 9, "\x7d`"⟩, ⟨.template, 11, "\x7dw`"⟩] := by decide +kernel
  exact ⟨h, (openTemplates_eq_zero_iff h).1⟩

/-- A source that ends inside a substitution is accepted, and its template literal stays open. -/
theorem tokenize_unclosed_substitution :
    tokenize "`a $\x7bx" = .ok [⟨.templateHead, 0, "`a $\x7b"⟩, ⟨.ident, 5, "x"⟩] ∧
      openTemplates [⟨.templateHead, 0, "`a $\x7b"⟩, ⟨.ident, 5, "x"⟩] = 1 := by
  constructor
  · decide +kernel
  · rfl

end Lexer

end EdgeBundle
