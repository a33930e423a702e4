import EdgeBundle.Proofs.Module.Import
import EdgeBundle.Proofs.Module.Outline
import EdgeBundle.Proofs.Token.Single

/-!
# References to modules

The forms of import and export that name another module, each as a text. The text is read as the
form that it spells, from its first byte to its last or to the semicolon after a call.

## Main definitions

* `ReferenceForm`: the forms of import and export that refer to another module.
* `ReferenceForm.text`: a module that consists of a statement of the form.
* `exportText`: a module that exports a local name.

## Main statements

* `ReferenceForm.tokenize_text`: the tokens of the text.
* `ReferenceForm.exists_readForm_eq_ok`: what is read of them.
* `exists_readForm_export`: the same for an export of a local name.
-/

namespace EdgeBundle.LinkedModule

open Lexer

/-- The forms of import and export that refer to another module by its specifier. -/
inductive ReferenceForm where
  /-- `import { x as y } from` -/
  | names
  /-- `import * as y from` -/
  | whole
  /-- `import y from` -/
  | default
  /-- `export { x as y } from` -/
  | reexport
  /-- `import(…)` -/
  | call
  deriving DecidableEq, Repr

/-- A name with another name for it, in braces. -/
def renamed (x y : String) : String :=
  "\x7b " ++ x ++ " as " ++ y ++ " \x7d"

namespace ReferenceForm

/-- The keyword of the form. -/
def keyword : ReferenceForm → String
  | reexport => "export"
  | _ => "import"

/-- What stands between the keyword and `from`. -/
def clause (x y : String) : ReferenceForm → String
  | names | reexport => renamed x y
  | whole => "* as " ++ y
  | default => y
  | call => ""

/-- A statement of the form. The semicolon after a call is not part of it. -/
def statement (x y specifier : String) : ReferenceForm → String
  | call => "import('" ++ specifier ++ "')"
  | f => f.keyword ++ " " ++ f.clause x y ++ " from '" ++ specifier ++ "';"

/-- What follows the statement. -/
def tail : ReferenceForm → String
  | call => ";"
  | _ => ""

/-- A module that consists of a statement of the form. -/
def text (x y specifier : String) (f : ReferenceForm) : String :=
  f.statement x y specifier ++ f.tail

/-- What is read of the statement. -/
def form (x y specifier : String) : ReferenceForm → Form
  | names => .importFrom ⟨none, none, some [⟨x, y⟩]⟩ specifier
  | whole => .importFrom ⟨none, some y, none⟩ specifier
  | default => .importFrom ⟨some y, none, none⟩ specifier
  | reexport => .exportNamesFrom [⟨x, y⟩] specifier
  | call => .importCall specifier

end ReferenceForm

/-- The text of a module that exports one local name under another name. -/
def exportText (l x : String) : String :=
  "export " ++ renamed l x ++ ";"

/-! ## Tokens -/

/-- Tokens of a name with another name for it, from byte seven on. -/
def renamedTokens (x y : String) : List Token :=
  let next := 9 + x.utf8ByteSize + 1
  [⟨.punct, 7, "\x7b"⟩, ⟨.ident, 9, x⟩, ⟨.ident, next, "as"⟩, ⟨.ident, next + 3, y⟩,
    ⟨.punct, next + 3 + y.utf8ByteSize + 1, "\x7d"⟩]

/-- Text of ` from` with a specifier. -/
def fromText (specifier : String) : List Char :=
  ' ' :: ("from".toList ++ ' ' :: '\'' :: (specifier.toList ++ '\'' :: [';']))

/-- Tokens of ` from` with a specifier, from byte `offset` on. -/
def fromTokens (offset : Nat) (specifier : String) : List Token :=
  [⟨.ident, offset + 1, "from"⟩, ⟨.str, offset + 6, "'" ++ specifier ++ "'"⟩,
    ⟨.punct, offset + 6 + specifier.utf8ByteSize + 2, ";"⟩]

namespace ReferenceForm

/-- Tokens of what stands between the keyword and `from`. -/
def clauseTokens (x y : String) : ReferenceForm → List Token
  | names | reexport => renamedTokens x y
  | whole => [⟨.punct, 7, "*"⟩, ⟨.ident, 9, "as"⟩, ⟨.ident, 12, y⟩]
  | default => [⟨.ident, 7, y⟩]
  | call => []

/-- Tokens of the text after its keyword. -/
def tokens (x y specifier : String) : ReferenceForm → List Token
  | call => [⟨.punct, 6, "("⟩, ⟨.str, 7, "'" ++ specifier ++ "'"⟩,
      ⟨.punct, 7 + specifier.utf8ByteSize + 2, ")"⟩,
      ⟨.punct, 7 + specifier.utf8ByteSize + 2 + 1, ";"⟩]
  | f => f.clauseTokens x y ++ fromTokens (7 + (f.clause x y).utf8ByteSize) specifier

end ReferenceForm

section Tokens

variable {x y specifier : String} {rest : List Char} {ts : List Token}

theorem utf8ByteSize_renamed :
    (renamed x y).utf8ByteSize = 2 + x.utf8ByteSize + 4 + y.utf8ByteSize + 2 := by
  have hsize : "\x7b ".utf8ByteSize = 2 ∧ " as ".utf8ByteSize = 4 ∧ " \x7d".utf8ByteSize = 2 :=
    ⟨rfl, rfl, rfl⟩
  simp only [renamed, String.utf8ByteSize_append, hsize]

theorem isToken_ident_of_mem_keywords {word : String} (h : word ∈ Statement.keywords) :
    IsToken .ident word ∧ word.utf8ByteSize = 6 := by
  simp only [Statement.keywords, List.mem_cons, List.not_mem_nil, or_false] at h
  rcases h with rfl | rfl <;> exact ⟨by decide +kernel, rfl⟩

/-- The tokens of a text that starts with a keyword. -/
theorem tokenize_of_scans {src word : String} (hword : word ∈ Statement.keywords)
    (htext : src.toList = word.toList ++ rest) (hends : EndsWord rest)
    (hrest : ∀ ctx, Scans ctx 6 rest ts) : tokenize src = .ok (⟨.ident, 0, word⟩ :: ts) := by
  obtain ⟨htoken, hsize⟩ := isToken_ident_of_mem_keywords hword
  -- a keyword is no hashbang
  have hbang : hashbangLength src.toList = 0 := by
    rw [htext]
    simp only [Statement.keywords, List.mem_cons, List.not_mem_nil, or_false] at hword
    rcases hword with rfl | rfl <;> rfl
  rw [tokenize_eq_ok_iff, hbang, List.take_zero, List.drop_zero, utf8Width_nil, htext]
  refine htoken.scans (by simp) hends ?_
  rw [hsize]
  exact hrest _

/-- A name with another name for it, after a keyword. -/
theorem scans_renamed (hx : IsToken .ident x) (hy : IsToken .ident y)
    (hrest : ∀ ctx, Scans ctx (7 + (renamed x y).utf8ByteSize) rest ts) (ctx : Context) :
    Scans ctx 7 ((renamed x y).toList ++ rest) (renamedTokens x y ++ ts) := by
  have has : IsToken .ident "as" := by decide +kernel
  have htext : (renamed x y).toList ++ rest = '\x7b' :: ' ' :: (x.toList ++ ' ' ::
      ("as".toList ++ ' ' :: (y.toList ++ ' ' :: '\x7d' :: rest))) := by
    simp [renamed]
  have hsize : 7 + (renamed x y).utf8ByteSize =
      9 + x.utf8ByteSize + 1 + 3 + y.utf8ByteSize + 1 + 1 := by
    rw [utf8ByteSize_renamed]
    omega
  rw [hsize] at hrest
  rw [htext]
  refine .bracket (by simp) (fun h => absurd h (by decide)) rfl (.blank ?_)
  refine hx.scans (by simp) (endsWord_cons (by decide)) (.blank ?_)
  refine has.scans (by simp) (endsWord_cons (by decide)) (.blank ?_)
  refine hy.scans (by simp) (endsWord_cons (by decide)) (.blank ?_)
  exact .bracket (by simp) (fun _ => rfl) rfl (hrest _)

theorem names_renamed : Statement.Names [⟨.ident, 9, x⟩, ⟨.ident, 9 + x.utf8ByteSize + 1, "as"⟩,
    ⟨.ident, 9 + x.utf8ByteSize + 1 + 3, y⟩] [⟨x, y⟩] :=
  .last (.renamed rfl rfl rfl)

/-- A specifier after `from`. -/
theorem scans_from (hquote : '\'' ∉ specifier.toList) (hescape : '\\' ∉ specifier.toList)
    (hline : '\n' ∉ specifier.toList) (ctx : Context) (offset : Nat) :
    Scans ctx offset (fromText specifier) (fromTokens offset specifier) := by
  have hfrom : IsToken .ident "from" := by decide +kernel
  refine .blank (hfrom.scans (by simp) (endsWord_cons (by decide)) (.blank ?_))
  exact .str hquote hescape hline fun _ => .punct (by simp) rfl .done

namespace ReferenceForm

/-- What stands between the keyword and `from`, before text that ends a word. -/
theorem scans_clause (hx : IsToken .ident x) (hy : IsToken .ident y) (hends : EndsWord rest)
    (f : ReferenceForm)
    (hrest : ∀ ctx, Scans ctx (7 + (f.clause x y).utf8ByteSize) rest ts) (ctx : Context) :
    Scans ctx 7 ((f.clause x y).toList ++ rest) (f.clauseTokens x y ++ ts) := by
  cases f with
  | names | reexport => exact scans_renamed hx hy hrest ctx
  | whole =>
    have has : IsToken .ident "as" := by decide +kernel
    have htext : (whole.clause x y).toList ++ rest =
        '*' :: ' ' :: ("as".toList ++ ' ' :: (y.toList ++ rest)) := by
      simp [clause]
    have hsize : 7 + (whole.clause x y).utf8ByteSize = 12 + y.utf8ByteSize := by
      have hstar : "* as ".utf8ByteSize = 5 := rfl
      simp only [clause, String.utf8ByteSize_append, hstar]
      omega
    rw [hsize] at hrest
    rw [htext]
    refine .bracket (by simp) (fun h => absurd h (by decide)) rfl (.blank ?_)
    refine has.scans (by simp) (endsWord_cons (by decide)) (.blank ?_)
    exact hy.scans (by simp) hends (hrest _)
  | default => exact hy.scans (by simp) hends (hrest _)
  | call => exact hrest ctx

theorem keyword_mem (f : ReferenceForm) : f.keyword ∈ Statement.keywords := by
  cases f <;> simp [keyword, Statement.keywords]

theorem statement_of_ne_call {f : ReferenceForm} (hf : f ≠ call) :
    f.statement x y specifier =
      f.keyword ++ " " ++ f.clause x y ++ " from '" ++ specifier ++ "';" := by
  cases f with
  | call => exact absurd rfl hf
  | _ => rfl

theorem tokens_of_ne_call {f : ReferenceForm} (hf : f ≠ call) :
    f.tokens x y specifier =
      f.clauseTokens x y ++ fromTokens (7 + (f.clause x y).utf8ByteSize) specifier := by
  cases f with
  | call => exact absurd rfl hf
  | _ => rfl

theorem startsForm_tokens (f : ReferenceForm) :
    Statement.startsForm false ⟨.ident, 0, f.keyword⟩ (f.tokens x y specifier) = true := by
  cases f <;> rfl

theorem not_hashbang_statement (f : ReferenceForm) :
    ¬ ['#', '!'] <+: (f.statement x y specifier).toList ++ rest := by
  cases f <;> simp [statement, keyword]

/-- The tokens of a text of any form. -/
theorem tokenize_text (hx : IsToken .ident x) (hy : IsToken .ident y)
    (hquote : '\'' ∉ specifier.toList) (hescape : '\\' ∉ specifier.toList)
    (hline : '\n' ∉ specifier.toList) (f : ReferenceForm) :
    tokenize (f.text x y specifier) =
      .ok (⟨.ident, 0, f.keyword⟩ :: f.tokens x y specifier) := by
  by_cases hf : f = call
  -- a call has its specifier right after the parenthesis
  · subst hf
    have htext : (call.text x y specifier).toList =
        "import".toList ++ '(' :: '\'' :: (specifier.toList ++ '\'' :: [')', ';']) := by
      simp [text, statement, tail]
    refine tokenize_of_scans (keyword_mem call) htext (endsWord_cons (by decide)) fun ctx => ?_
    refine .bracket (by simp) (fun h => absurd h (by decide)) rfl ?_
    refine .str hquote hescape hline fun _ => ?_
    exact .bracket (by simp) (fun h => absurd h (by decide)) rfl (.punct (by simp) rfl .done)
  · have htail : f.tail = "" := by cases f <;> first | rfl | exact absurd rfl hf
    have htext : (f.text x y specifier).toList =
        f.keyword.toList ++ ' ' :: ((f.clause x y).toList ++ fromText specifier) := by
      rw [text, statement_of_ne_call hf, htail]
      simp [fromText]
    rw [tokens_of_ne_call hf]
    refine tokenize_of_scans f.keyword_mem htext (endsWord_cons (by decide)) fun ctx => .blank ?_
    exact f.scans_clause hx hy (endsWord_cons (by decide))
      (fun _ => scans_from hquote hescape hline _ _) _

/-! ## Reading -/

theorem specifierText_quoted (offset : Nat) :
    Statement.specifierText ⟨.str, offset, "'" ++ specifier ++ "'"⟩ = specifier := by
  simp [Statement.specifierText]

/-- A clause before a specifier is read with the semicolon. -/
theorem readImport_fromTokens (hescape : '\\' ∉ specifier.toList) {clause : List Token}
    {c : ImportClause} (hclause : Statement.Clause clause c) (stop offset : Nat) :
    Statement.readImport stop (clause ++ fromTokens offset specifier) =
      .ok ⟨some (.importFrom c specifier), offset + 6 + specifier.utf8ByteSize + 2 + 1, []⟩ := by
  have hinner : '\\' ∉ ("'" ++ specifier ++ "'").toList.tail.dropLast := by simpa using hescape
  have hread := @Statement.readImport_append stop _ clause
    [⟨.punct, offset + 6 + specifier.utf8ByteSize + 2, ";"⟩] _ c ⟨.ident, offset + 1, "from"⟩
    ⟨.str, offset + 6, "'" ++ specifier ++ "'"⟩ (.inl hclause) rfl rfl hinner rfl
  rw [specifierText_quoted] at hread
  exact hread

/-- A name with another name for it before a specifier is read with the semicolon. -/
theorem readExport_fromTokens (hescape : '\\' ∉ specifier.toList) (stop offset : Nat) :
    Statement.readExport stop (renamedTokens x y ++ fromTokens offset specifier) =
      .ok ⟨some (.exportNamesFrom [⟨x, y⟩] specifier),
        offset + 6 + specifier.utf8ByteSize + 2 + 1, []⟩ := by
  have hinner : '\\' ∉ ("'" ++ specifier ++ "'").toList.tail.dropLast := by simpa using hescape
  have hread := @Statement.readExportNames_append_from _ _ (@names_renamed x y)
    ⟨.punct, 9 + x.utf8ByteSize + 1 + 3 + y.utf8ByteSize + 1, "\x7d"⟩
    ⟨.ident, offset + 1, "from"⟩ ⟨.str, offset + 6, "'" ++ specifier ++ "'"⟩ rfl rfl rfl hinner
    [⟨.punct, offset + 6 + specifier.utf8ByteSize + 2, ";"⟩]
  rw [specifierText_quoted] at hread
  exact hread

/-- A statement with `from` ends where its last token does. -/
theorem utf8ByteSize_statement {f : ReferenceForm} (hf : f ≠ call) :
    (f.statement x y specifier).utf8ByteSize =
      7 + (f.clause x y).utf8ByteSize + 6 + specifier.utf8ByteSize + 2 + 1 := by
  have hsize : " ".utf8ByteSize = 1 ∧ " from '".utf8ByteSize = 7 ∧ "';".utf8ByteSize = 2 :=
    ⟨rfl, rfl, rfl⟩
  have hkeyword := (isToken_ident_of_mem_keywords f.keyword_mem).2
  simp only [statement_of_ne_call hf, String.utf8ByteSize_append, hkeyword, hsize]
  omega

/-- The tokens are read as the form. -/
theorem exists_readForm_eq_ok (hescape : '\\' ∉ specifier.toList) (hy : y ≠ "from")
    (f : ReferenceForm) :
    ∃ rest, Statement.readForm ⟨.ident, 0, f.keyword⟩ (f.tokens x y specifier) =
        .ok ⟨some (f.form x y specifier), (f.statement x y specifier).utf8ByteSize, rest⟩ ∧
      ∀ u ∈ rest, Statement.isKeyword u = false := by
  -- the forms with `import` and `from` differ in their clauses only
  have hread : ∀ c, f ≠ call → f.keyword = "import" →
      f.form x y specifier = .importFrom c specifier →
      Statement.Clause (f.clauseTokens x y) c →
      Statement.readForm ⟨.ident, 0, f.keyword⟩ (f.tokens x y specifier) =
        .ok ⟨some (f.form x y specifier), (f.statement x y specifier).utf8ByteSize, []⟩ := by
    intro c hcall hkeyword hform hclause
    rw [hkeyword, hform, tokens_of_ne_call hcall, utf8ByteSize_statement hcall]
    exact readImport_fromTokens hescape hclause _ _
  cases f with
  | names =>
    have hclause : Statement.Clause (renamedTokens x y) ⟨none, none, some [⟨x, y⟩]⟩ :=
      .bindings (.names rfl names_renamed rfl)
    exact ⟨[], hread _ (by decide) rfl rfl hclause, by simp⟩
  | whole =>
    have hclause : Statement.Clause [⟨.punct, 7, "*"⟩, ⟨.ident, 9, "as"⟩, ⟨.ident, 12, y⟩]
        ⟨none, some y, none⟩ := .bindings (.all rfl rfl rfl)
    exact ⟨[], hread _ (by decide) rfl rfl hclause, by simp⟩
  | default => exact ⟨[], hread _ (by decide) rfl rfl (.default rfl hy), by simp⟩
  | reexport =>
    refine ⟨[], ?_, by simp⟩
    rw [utf8ByteSize_statement (by decide)]
    exact readExport_fromTokens hescape 6 _
  | call =>
    have hsize : (call.statement x y specifier).utf8ByteSize =
        7 + specifier.utf8ByteSize + 2 + 1 := by
      have hparen : "import('".utf8ByteSize = 8 ∧ "')".utf8ByteSize = 2 := ⟨rfl, rfl⟩
      simp only [statement, String.utf8ByteSize_append, hparen]
      omega
    have hinner : '\\' ∉ ("'" ++ specifier ++ "'").toList.tail.dropLast := by simpa using hescape
    have hcall := @Statement.readImport_call 6 ⟨.punct, 6, "("⟩
      ⟨.str, 7, "'" ++ specifier ++ "'"⟩ ⟨.punct, 7 + specifier.utf8ByteSize + 2, ")"⟩ rfl rfl
      hinner rfl [⟨.punct, 7 + specifier.utf8ByteSize + 2 + 1, ";"⟩]
    rw [specifierText_quoted] at hcall
    refine ⟨[⟨.punct, 7 + specifier.utf8ByteSize + 2 + 1, ";"⟩], ?_, ?_⟩
    · rw [hsize]
      exact hcall
    · simp [Statement.isKeyword, Token.isWord]

end ReferenceForm

/-- What is read of an export of a local name. -/
theorem exists_readForm_export {l : String} (hl : IsToken .ident l) (hx : IsToken .ident x) :
    ∃ ts, tokenize (exportText l x) = .ok (⟨.ident, 0, "export"⟩ :: ts) ∧
      Statement.startsForm false ⟨.ident, 0, "export"⟩ ts = true ∧
      Statement.readForm ⟨.ident, 0, "export"⟩ ts =
        .ok ⟨some (.exportNames [⟨l, x⟩]), (exportText l x).utf8ByteSize, []⟩ := by
  have htext : (exportText l x).toList =
      "export".toList ++ ' ' :: ((renamed l x).toList ++ [';']) := by
    simp [exportText]
  have hsize : (exportText l x).utf8ByteSize =
      9 + l.utf8ByteSize + 1 + 3 + x.utf8ByteSize + 1 + 1 + 1 := by
    have hends : "export ".utf8ByteSize = 7 ∧ ";".utf8ByteSize = 1 := ⟨rfl, rfl⟩
    simp only [exportText, String.utf8ByteSize_append, utf8ByteSize_renamed, hends]
    omega
  have htokens : tokenize (exportText l x) = .ok (⟨.ident, 0, "export"⟩ :: (renamedTokens l x ++
      [⟨.punct, 7 + (renamed l x).utf8ByteSize, ";"⟩])) := by
    refine tokenize_of_scans (by decide) htext (endsWord_cons (by decide)) fun ctx => .blank ?_
    exact scans_renamed hl hx (fun _ => .punct (by simp) rfl .done) _
  refine ⟨_, htokens, rfl, ?_⟩
  have hstop : 7 + (renamed l x).utf8ByteSize =
      9 + l.utf8ByteSize + 1 + 3 + x.utf8ByteSize + 1 + 1 := by
    rw [utf8ByteSize_renamed]
    omega
  rw [hsize, hstop]
  exact @Statement.readExportNames_append _ _ (@names_renamed l x)
    ⟨.punct, 9 + l.utf8ByteSize + 1 + 3 + x.utf8ByteSize + 1, "\x7d"⟩ rfl
    [⟨.punct, 9 + l.utf8ByteSize + 1 + 3 + x.utf8ByteSize + 1 + 1, ";"⟩] rfl

end Tokens

end EdgeBundle.LinkedModule
