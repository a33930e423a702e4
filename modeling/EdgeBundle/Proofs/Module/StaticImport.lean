import EdgeBundle.Proofs.Module.FormRead
import EdgeBundle.Proofs.Module.Linked

/-!
# Modules with one import declaration

A module that starts with an import can be linked if its tokens are a declaration, as far as
imports go, and any other tokens are an error. Only a missing comma after the default binding goes
unnoticed.

## Main statements

* `result_ofSource_of_fault`, `result_ofSource_of_form`: a module whose only statement is its first.
* `exists_effect_eq_ok`: an import of a specifier that can be classified has an effect.
* `ofSource_import_iff`: which imports can be linked.
-/

namespace EdgeBundle.LinkedModule

open Logged

variable {config : Config} {path : RelPath} {src : String}

/-- A source in which no form can be read ends in the error for its first fault. -/
theorem result_ofSource_of_fault {tokens : List Token} {fault : SyntaxFault}
    (htokens : tokenize src = .ok tokens)
    (houtline : Statement.outline false tokens = ⟨[], some fault⟩) :
    (ofSource config path src).result = .error (syntaxError path src.toList fault) := by
  have heffects : (effectsOf config path src).result =
      .error (syntaxError path src.toList fault) := by
    rw [effectsOf, result_bind_of_ok (by rw [result_ofExcept, htokens]; rfl)]
    simp only [houtline]
    rw [List.mapM_nil, result_bind_of_ok (result_pure _)]
    exact result_bind_of_error (result_throw _) _
  exact result_bind_of_error heffects _

/-- A source with one statement, at its start, that has an effect. -/
theorem result_ofSource_of_form {t : Token} {ts rest : List Token} {form : Form} {stop : Nat}
    {e : Effect} (htokens : tokenize src = .ok (t :: ts))
    (hstarts : Statement.startsForm false t ts = true)
    (hread : Statement.readForm t ts = .ok ⟨some form, stop, rest⟩)
    (hrest : ∀ u ∈ rest, Statement.isKeyword u = false)
    (heffect : (effect (.ofConfig config path) (lineAt src.toList t.start)
      ⟨t.start, stop, form⟩).result = .ok e) :
    (ofSource config path src).result = .ok (ofEffects path src.toList [e]) := by
  have houtline := Statement.outline_cons_of_form hstarts hread
  rw [Statement.outline_eq_nil hrest] at houtline
  have heffects : (effectsOf config path src).result = .ok [e] := by
    refine result_effectsOf_eq_ok_iff.mpr ⟨t :: ts, htokens, by rw [houtline], ?_⟩
    rw [houtline]
    exact .cons heffect .nil
  exact result_ofSource_eq_ok_iff.mpr ⟨[e], heffects, rfl⟩

/-- An import of a specifier that can be classified has an effect. -/
theorem exists_effect_eq_ok {site : Site} {line : Nat} {s : Statement} {specifier : String}
    (hform : s.form = .bareImport specifier ∨ ∃ c, s.form = .importFrom c specifier)
    (hclass : ∃ s, site.classify specifier = .ok s) (hstrict : site.strictBuiltins = false) :
    ∃ e, (effect site line s).result = .ok e := by
  obtain ⟨start, stop, form⟩ := s
  obtain ⟨target, htarget⟩ := hclass
  rcases hform with rfl | ⟨c, rfl⟩
  · exact ⟨_, result_effect_eq_ok_iff.mpr (.bareImport htarget)⟩
  · have hknown : site.strictBuiltins = true → target.source ≠ .empty := by simp [hstrict]
    exact ⟨_, result_effect_eq_ok_iff.mpr (.importFrom ⟨htarget, hknown⟩)⟩

section Import

variable {t : Token} {ts : List Token}

/-- An `import` before anything but a dot, a parenthesis or a colon starts a form. -/
theorem readForm_of_import (himport : t.isWord "import" = true) :
    Statement.readForm t ts = Statement.readImport t.stop ts := by
  rw [Statement.readForm, if_pos (Token.isWord_iff.mp himport).2]

theorem startsForm_of_import (himport : t.isWord "import" = true)
    (hcolon : Statement.startsPunct ":" ts = false) : Statement.startsForm false t ts = true := by
  simp [Statement.startsForm, Statement.isKeyword, himport, hcolon]

/-- A module that starts with an import declaration, or with one that lacks the comma, can be
linked. -/
theorem exists_ofSource_eq_ok (htokens : tokenize src = .ok (t :: ts))
    (himport : t.isWord "import" = true) (hcolon : Statement.startsPunct ":" ts = false)
    (hkeys : ∀ u ∈ ts, Statement.isKeyword u = false)
    (hescape : ∀ u ∈ ts, u.kind = .str → '\\' ∉ u.text.toList)
    (hclass : ∀ u ∈ ts, u.kind = .str →
      (Specifier.classify path (Statement.specifierText u) config.builtinPrefix).isOk = true)
    (hstrict : config.strictBuiltins = false)
    (h : Statement.ImportDeclaration ts ∨ Statement.BindsFrom Statement.Unseparated ts) :
    ∃ m, (ofSource config path src).result = .ok m := by
  obtain ⟨form, s, stop, rest, hread, hs, hkind, hform⟩ :=
    @Statement.exists_readImport_eq_ok t.stop ts hescape h
  have hread' := (readForm_of_import himport).trans hread
  have hrest : ∀ u ∈ rest, Statement.isKeyword u = false := fun u hu =>
    hkeys u ((Statement.readForm_cutsAt hread').isSuffix_tail.mem hu)
  have hsite : ∃ target, (Site.ofConfig config path).classify (Statement.specifierText s) =
      .ok target := by
    have hok := hclass s hs hkind
    rw [Site.classify, Site.ofConfig]
    cases htarget : Specifier.classify path (Statement.specifierText s) config.builtinPrefix with
    | error e => rw [htarget] at hok; cases hok
    | ok target => exact ⟨target, rfl⟩
  -- the statement is the only one, so its effect is all that can fail
  obtain ⟨e, he⟩ := @exists_effect_eq_ok (.ofConfig config path) (lineAt src.toList t.start)
    ⟨t.start, stop, form⟩ (Statement.specifierText s) hform hsite hstrict
  exact ⟨_, result_ofSource_of_form htokens (startsForm_of_import himport hcolon) hread' hrest he⟩

/-- A module that starts with an import and has no other can be linked exactly if the import is a
declaration or lacks the comma in one; all else is unsupported syntax. So it can be linked exactly
if it is a declaration, unless the comma is missing. -/
theorem ofSource_import_iff (htokens : tokenize src = .ok (t :: ts))
    (himport : t.isWord "import" = true)
    (hnext : ∀ p ∈ [".", "(", ":"], Statement.startsPunct p ts = false)
    (hkeys : ∀ u ∈ ts, Statement.isKeyword u = false)
    (hstr : ∀ u ∈ ts, u.kind = .str → '\\' ∉ u.text.toList ∧
      (Specifier.classify path (Statement.specifierText u) config.builtinPrefix).isOk = true)
    (hstrict : config.strictBuiltins = false) :
    ((∃ m, (ofSource config path src).result = .ok m) ↔
        Statement.ImportDeclaration ts ∨ Statement.BindsFrom Statement.Unseparated ts) ∧
      ((∃ e, (ofSource config path src).result = .error e ∧ e.isUnsupportedSyntax = true) ↔
        ¬ Statement.ImportDeclaration ts ∧ ¬ Statement.BindsFrom Statement.Unseparated ts) ∧
      (((∃ m, (ofSource config path src).result = .ok m) ↔ Statement.ImportDeclaration ts) ↔
        ¬ Statement.BindsFrom Statement.Unseparated ts) := by
  have hcolon : Statement.startsPunct ":" ts = false := hnext ":" (by simp)
  have hlinked : Statement.ImportDeclaration ts ∨ Statement.BindsFrom Statement.Unseparated ts →
      ∃ m, (ofSource config path src).result = .ok m :=
    exists_ofSource_eq_ok htokens himport hcolon hkeys (fun u hu hkind => (hstr u hu hkind).1)
      (fun u hu hkind => (hstr u hu hkind).2) hstrict
  have hfault : ¬ (Statement.ImportDeclaration ts ∨
        Statement.BindsFrom Statement.Unseparated ts) →
      ∃ e, (ofSource config path src).result = .error e ∧ e.isUnsupportedSyntax = true := by
    intro hnot
    cases hread : Statement.readForm t ts with
    | ok r =>
      exact absurd (Statement.declaration_of_readForm himport (hnext "." (by simp))
        (hnext "(" (by simp)) hread) hnot
    | error fault =>
      exact ⟨_, result_ofSource_of_fault htokens (Statement.outline_cons_of_error
        (startsForm_of_import himport hcolon) hread), rfl⟩
  -- the two outcomes exclude each other, so that each implication is an equivalence
  have hexclusive : (∃ m, (ofSource config path src).result = .ok m) →
      ¬ ∃ e, (ofSource config path src).result = .error e ∧ e.isUnsupportedSyntax = true := by
    rintro ⟨m, hm⟩ ⟨e, he, -⟩
    rw [hm] at he
    cases he
  have hok : (∃ m, (ofSource config path src).result = .ok m) ↔
      Statement.ImportDeclaration ts ∨ Statement.BindsFrom Statement.Unseparated ts :=
    ⟨fun hm => by_contra fun hnot => hexclusive hm (hfault hnot), hlinked⟩
  refine ⟨hok, ?_, ?_⟩
  · rw [← not_or]
    exact ⟨fun he hform => hexclusive (hlinked hform) he, hfault⟩
  · rw [hok, or_iff_left_iff_imp]
    exact ⟨fun h hmissing => hmissing.not_importDeclaration (h hmissing),
      fun hnot hmissing => absurd hmissing hnot⟩

/-- A declaration with a comma after the last name and with attributes. -/
theorem ofSource_import_iff_attributes :
    ∃ src t ts, src = "import a, \x7b b as c, \x7d from './b.mjs' with \x7b type: 'json' \x7d;" ∧
      tokenize src = .ok (t :: ts) ∧ Statement.ImportDeclaration ts ∧
      ((∃ m, (ofSource {} ⟨"a.mjs", by decide⟩ src).result = .ok m) ↔
        Statement.ImportDeclaration ts ∨ Statement.BindsFrom Statement.Unseparated ts) := by
  have hclause : Statement.Clause [⟨.ident, 7, "a"⟩, ⟨.punct, 8, ","⟩, ⟨.punct, 10, "\x7b"⟩,
      ⟨.ident, 12, "b"⟩, ⟨.ident, 14, "as"⟩, ⟨.ident, 17, "c"⟩, ⟨.punct, 18, ","⟩,
      ⟨.punct, 20, "\x7d"⟩] ⟨some "a", none, some [⟨"b", "c"⟩]⟩ :=
    .both rfl (by decide) rfl (.names rfl (.cons (.renamed rfl rfl rfl) rfl .nil) rfl)
  have hcloses : Statement.ClosesAttributes [⟨.ident, 37, "with"⟩, ⟨.punct, 42, "\x7b"⟩,
      ⟨.ident, 44, "type"⟩, ⟨.punct, 48, ":"⟩, ⟨.str, 50, "'json'"⟩, ⟨.punct, 57, "\x7d"⟩,
      ⟨.punct, 58, ";"⟩] :=
    fun _ _ => ⟨⟨.punct, 57, "\x7d"⟩, by decide, rfl⟩
  refine ⟨"import a, \x7b b as c, \x7d from './b.mjs' with \x7b type: 'json' \x7d;",
    ⟨.ident, 0, "import"⟩, _ ++ ⟨.ident, 22, "from"⟩ :: ⟨.str, 27, "'./b.mjs'"⟩ :: _, rfl, ?_,
    .from ⟨hclause, rfl, rfl, hcloses⟩, ?_⟩
  · decide +kernel
  · exact (@ofSource_import_iff {} _ _ ⟨.ident, 0, "import"⟩ _ (by decide +kernel) (by decide)
      (by decide) (by decide) (by decide +kernel) rfl).1

/-- Without the comma after the default binding the tokens are no declaration, but the module is
linked. -/
theorem ofSource_import_without_comma :
    ∃ t ts, tokenize "import a \x7b b \x7d from './b.mjs';" = .ok (t :: ts) ∧
      t.isWord "import" = true ∧
      (∀ p ∈ [".", "(", ":"], Statement.startsPunct p ts = false) ∧
      (∀ u ∈ ts, Statement.isKeyword u = false) ∧
      (∀ u ∈ ts, u.kind = .str → '\\' ∉ u.text.toList ∧
        (Specifier.classify ⟨"a.mjs", by decide⟩ (Statement.specifierText u) "node:").isOk =
          true) ∧
      ¬ Statement.ImportDeclaration ts ∧
      ∃ m, (ofSource {} ⟨"a.mjs", by decide⟩ "import a \x7b b \x7d from './b.mjs';").result =
        .ok m := by
  refine ⟨⟨.ident, 0, "import"⟩, [⟨.ident, 7, "a"⟩, ⟨.punct, 9, "\x7b"⟩, ⟨.ident, 11, "b"⟩,
    ⟨.punct, 13, "\x7d"⟩] ++ ⟨.ident, 15, "from"⟩ :: ⟨.str, 20, "'./b.mjs'"⟩ ::
    [⟨.punct, 29, ";"⟩], by decide +kernel, by decide, by decide, by decide, by decide +kernel,
    ?_, ?_⟩
  · have hclause : Statement.Unseparated [⟨.ident, 7, "a"⟩, ⟨.punct, 9, "\x7b"⟩,
        ⟨.ident, 11, "b"⟩, ⟨.punct, 13, "\x7d"⟩] ⟨some "a", none, some [⟨"b", "b"⟩]⟩ :=
      .mk rfl (by decide) (.names rfl (.last (.plain rfl)) rfl)
    exact Statement.BindsFrom.not_importDeclaration
      ⟨hclause, rfl, rfl, fun h => absurd h (by decide)⟩
  · have hok : (ofSource {} ⟨"a.mjs", by decide⟩
        "import a \x7b b \x7d from './b.mjs';").result.toBool = true := by decide +kernel
    cases hm : (ofSource {} ⟨"a.mjs", by decide⟩
        "import a \x7b b \x7d from './b.mjs';").result with
    | error e => rw [hm] at hok; cases hok
    | ok m => exact ⟨m, rfl⟩

end Import

end EdgeBundle.LinkedModule
