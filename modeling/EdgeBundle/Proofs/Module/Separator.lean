import EdgeBundle.Proofs.Module.FormRead
import EdgeBundle.Proofs.Module.Linked

/-!
# Separators for removed statements

Where an import or a list of exports is taken out of a source, a semicolon must keep the lines
around it apart, since what follows may go on with what comes before. What takes the place of the
statement ends with a semicolon, unless the statement imports nothing in braces: then nothing takes
its place.

## Main definitions

* `Form.isRemoved`: forms that are taken out of the source.
* `Statement.importsNothing`: an import of no names, in braces.

## Main statements

* `LinkedModule.edit_of_isRemoved`: what takes the place of one removed statement.
* `LinkedModule.ofSource_separator`: which removed statements of a module leave a semicolon.
* `LinkedModule.ofSource_import_nothing`: an import of nothing leaves none.
-/

namespace EdgeBundle

/-- The clause binds no name. -/
def ImportClause.isEmpty (c : ImportClause) : Bool :=
  c.defaultName.isNone && c.namespaceName.isNone && (c.names.getD []).isEmpty

namespace Form

/-- Whether a statement of the form is taken out of the source. -/
def isRemoved : Form → Bool
  | bareImport _ | importFrom .. | exportNames _ | exportNamesFrom .. | exportAll .. => true
  | importCall _ | computedImport | exportDefaultDeclaration _ | exportDefault
  | exportDeclaration _ => false

/-- Whether the form is an import from a module that binds no name. -/
def bindsNothing : Form → Bool
  | importFrom clause _ => clause.isEmpty
  | _ => false

end Form

/-! ## Imports of nothing -/

namespace Statement

/-- Whether an import starts with braces that have nothing between them. -/
def importsNothing (t : Token) (ts : List Token) : Bool :=
  t.isWord "import" && startsPunct "\x7b" ts && startsPunct "\x7d" ts.tail

/-- Names between braces start with a name. -/
theorem Names.nil_or_exists_cons {ts : List Token} {ps : List NamePair} (h : Names ts ps) :
    ts = [] ∧ ps = [] ∨ ps ≠ [] ∧ ∃ t more, ts = t :: more ∧ t.kind = .ident := by
  have hitem {item : List Token} {p : NamePair} (h : NameItem item p) :
      ∃ t more, item = t :: more ∧ t.kind = .ident := by
    cases h with
    | plain ht => exact ⟨_, _, rfl, ht⟩
    | renamed ht => exact ⟨_, _, rfl, ht⟩
  cases h with
  | nil => exact .inl ⟨rfl, rfl⟩
  | last h => exact .inr ⟨List.cons_ne_nil _ _, hitem h⟩
  | cons h _ _ =>
    obtain ⟨t, more, rfl, ht⟩ := hitem h
    exact .inr ⟨List.cons_ne_nil _ _, t, _, rfl, ht⟩

/-- A clause binds no name exactly if it is a pair of braces. -/
theorem isEmpty_iff_of_clause {clause : List Token} {c : ImportClause}
    (h : Clause clause c ∨ Unseparated clause c) (rest : List Token) :
    c.isEmpty = true ↔ startsPunct "\x7b" (clause ++ rest) = true ∧
      startsPunct "\x7d" (clause ++ rest).tail = true := by
  have hident {t : Token} (ht : t.kind = .ident) (p : String) : t.isPunct p = false :=
    Token.isPunct_eq_false (by simp [ht]) p
  rcases h with (@⟨t, ht⟩ | @⟨_, name, names, hts⟩ | @⟨t, comma, ts, name, names, ht⟩) |
    @⟨t, ts, name, names, ht⟩
  · simp [ImportClause.isEmpty, hident ht]
  · cases hts with
    | all hstar =>
      simp [ImportClause.isEmpty, Token.isPunct_eq_false_of_ne hstar]
    | names hopening hnames hclosing =>
      rcases hnames.nil_or_exists_cons with ⟨rfl, rfl⟩ | ⟨hps, t, more, rfl, ht⟩
      · simp [ImportClause.isEmpty, hopening, hclosing]
      · simp [ImportClause.isEmpty, hps, hident ht]
  · simp [ImportClause.isEmpty, hident ht]
  · simp [ImportClause.isEmpty, hident ht]

/-- A statement binds nothing exactly if it is an import that starts with a pair of braces. -/
theorem bindsNothing_iff_of_readForm {t : Token} {ts rest : List Token} {form : Form} {stop : Nat}
    (hkey : isKeyword t = true) (h : readForm t ts = .ok ⟨some form, stop, rest⟩) :
    form.bindsNothing = true ↔ importsNothing t ts = true := by
  have hexport (hk : t.isWord "export" = true) (us : List Token) : importsNothing t us = false := by
    simp [importsNothing, Token.isWord_eq_false_of_ne hk]
  have hcall {opening : Token} {more : List Token} (hopening : opening.isPunct "(" = true) :
      importsNothing t (opening :: more) = false := by
    simp [importsNothing, Token.isPunct_eq_false_of_ne hopening]
  cases (readForm_eq_ok_iff hkey).mp h with
  | @static f head rest s _ hhead hs hend =>
    obtain rfl := Option.some.inj (StaticForm.value_of_readEnd hend)
    cases hhead with
    | bare =>
      simp [StaticForm.form, Form.bindsNothing, importsNothing, Token.isPunct, hs]
    | bindings hk hclause =>
      rw [importsNothing, hk, Bool.true_and, Bool.and_eq_true, List.append_assoc]
      exact isEmpty_iff_of_clause hclause _
    | names hk | all hk | allAs hk => simp [StaticForm.form, Form.bindsNothing, hexport hk]
  | call _ hopening | computedCall _ hopening => simp [Form.bindsNothing, hcall hopening]
  | names hk | defaultDeclaration hk | default hk | variableDeclaration hk | declaration hk =>
    simp [Form.bindsNothing, hexport hk]

end Statement

namespace LinkedModule

/-! ## Replacements -/

/-- Texts that all end with one character still do when they are joined. -/
theorem getLast?_intercalate {separator : List Char} {c : Char} {texts : List (List Char)}
    (hne : texts ≠ []) (h : ∀ text ∈ texts, text.getLast? = some c) :
    (separator.intercalate texts).getLast? = some c := by
  induction texts with
  | nil => exact absurd rfl hne
  | cons text texts ih =>
    rw [List.forall_mem_cons] at h
    cases texts with
    | nil =>
      rw [List.intercalate_singleton]
      exact h.1
    | cons next texts =>
      have hlast := ih (List.cons_ne_nil next texts) h.2
      have hnonempty : separator.intercalate (next :: texts) ≠ [] := by
        intro hnil
        rw [hnil] at hlast
        cases hlast
      rw [List.intercalate_cons_cons, List.getLast?_append_of_ne_nil _ hnonempty]
      exact hlast

/-- Declarations of bindings end with a semicolon. -/
theorem getLast?_bindingText {clause : ImportClause} (h : clause.isEmpty = false)
    (source : Source) : (bindingText clause source).toList.getLast? = some ';' := by
  rw [bindingText, String.toList_intercalate]
  refine getLast?_intercalate ?_ ?_
  · obtain ⟨_ | name, _ | space, _ | names⟩ := clause <;>
      simp [ImportClause.isEmpty] at h ⊢
    exact h
  · intro text htext
    simp only [List.mem_map, List.mem_append] at htext
    obtain ⟨declaration, (⟨_, -, rfl⟩ | ⟨_, -, rfl⟩) | ⟨_, -, rfl⟩, rfl⟩ := htext <;>
      rw [String.toList_append] <;> exact List.getLast?_concat

/-- Without bindings there are no declarations. -/
theorem bindingText_of_isEmpty {clause : ImportClause} (h : clause.isEmpty = true)
    (source : Source) : bindingText clause source = "" := by
  obtain ⟨_ | name, _ | space, _ | _ | ⟨pair, names⟩⟩ := clause <;>
    first | rfl | cases h

/-- What takes the place of a removed statement ends with a semicolon, unless the statement binds
nothing: then it is empty. -/
theorem edit_of_isRemoved {site : Site} {line : Nat} {s : Statement} {e : Effect}
    (h : (effect site line s).result = .ok e) (hremoved : s.form.isRemoved = true) :
    ∃ text, e.edit = some ⟨s.start, s.stop, text⟩ ∧
      (text.toList.getLast? = some ';' ↔ s.form.bindsNothing = false) ∧
      (s.form.bindsNothing = true → text = "") := by
  obtain ⟨start, stop, form⟩ := s
  cases result_effect_eq_ok_iff.mp h with
  | @importFrom clause specifier target =>
    refine ⟨bindingText clause target.source, rfl, ?_,
      fun hempty => bindingText_of_isEmpty hempty _⟩
    cases hempty : clause.isEmpty with
    | false => simp [Form.bindsNothing, hempty, getLast?_bindingText hempty]
    | true => simp [Form.bindsNothing, hempty, bindingText_of_isEmpty hempty]
  | bareImport | exportNames | exportNamesFrom | exportAllAs | exportAll =>
    exact ⟨";", rfl, by simp [Form.bindsNothing]⟩
  | builtinCall | importCall | computedImport | exportDefaultDeclaration | exportDefault
  | exportDeclaration => cases hremoved

/-! ## Modules -/

variable {config : Config} {path : RelPath} {src : String}

/-- In the body of a module the text in place of each import declaration, list of exports and export
of everything ends with a semicolon, unless the statement is an import that starts with a pair of
braces: then nothing takes its place. What stands around it comes of the source around the
statement. -/
theorem ofSource_separator {m : LinkedModule} (h : (ofSource config path src).result = .ok m) :
    ∃ tokens effects body, tokenize src = .ok tokens ∧
      (effectsOf config path src).result = .ok effects ∧
      m.code = wrap path body (Manifest.ofEffects effects) ∧
      ∀ s ∈ (Statement.outline false tokens).statements, s.form.isRemoved = true →
        ∃ used keyword following text, tokens = used ++ keyword :: following ∧
          s.start = keyword.start ∧
          Edit.StandsIn src.toList (editsOf src.toList effects) body ⟨s.start, s.stop, text⟩ ∧
          (text.toList.getLast? = some ';' ↔
            Statement.importsNothing keyword following = false) ∧
          (Statement.importsNothing keyword following = true → text = "") := by
  obtain ⟨effects, heffectsOf, rfl⟩ := result_ofSource_eq_ok_iff.mp h
  obtain ⟨tokens, htokens, -, heffects⟩ := result_effectsOf_eq_ok_iff.mp heffectsOf
  refine ⟨tokens, effects, _, htokens, heffectsOf, rfl, fun s hs hremoved => ?_⟩
  obtain ⟨e, he, heffect⟩ := exists_mem_of_forall₂ heffects hs
  obtain ⟨text, hedit, hlast, hempty⟩ := edit_of_isRemoved heffect hremoved
  obtain ⟨used, keyword, following, rest, rfl, hkey, hstart, hread⟩ :=
    Statement.exists_readForm_of_mem_outline hs
  -- whether nothing is imported can be told from the tokens
  have hbinds := Statement.bindsNothing_iff_of_readForm hkey hread
  refine ⟨used, keyword, following, text, rfl, hstart, ?_, ?_, fun h => hempty (hbinds.mpr h)⟩
  · have hmem : (⟨s.start, s.stop, text⟩ : Edit) ∈ editsOf src.toList effects :=
      List.mem_append_right _ (List.mem_filterMap.mpr ⟨e, he, hedit⟩)
    exact (Edit.splices_apply (ordered_editsOf htokens heffects)).standsIn hmem
  · rw [hlast, ← Bool.not_eq_true, hbinds, Bool.not_eq_true]

/-- An import of nothing in braces after a list of exports. -/
theorem ofSource_separator_braces :
    ∃ src m, src = "export \x7b a \x7d\nimport \x7b\x7d from './b.mjs'\n(c)" ∧
      (ofSource {} ⟨"a.mjs", by decide⟩ src).result = .ok m ∧
      ∃ tokens effects body, tokenize src = .ok tokens ∧
        (effectsOf {} ⟨"a.mjs", by decide⟩ src).result = .ok effects ∧
        m.code = wrap ⟨"a.mjs", by decide⟩ body (Manifest.ofEffects effects) ∧
        (Statement.outline false tokens).statements =
          [⟨0, 12, .exportNames [⟨"a", "a"⟩]⟩,
            ⟨13, 37, .importFrom ⟨none, none, some []⟩ "./b.mjs"⟩] ∧
        ∀ s ∈ (Statement.outline false tokens).statements, s.form.isRemoved = true →
          ∃ used keyword following text, tokens = used ++ keyword :: following ∧
            s.start = keyword.start ∧
            Edit.StandsIn src.toList (editsOf src.toList effects) body ⟨s.start, s.stop, text⟩ ∧
            (text.toList.getLast? = some ';' ↔
              Statement.importsNothing keyword following = false) ∧
            (Statement.importsNothing keyword following = true → text = "") := by
  refine ⟨"export \x7b a \x7d\nimport \x7b\x7d from './b.mjs'\n(c)", ?_⟩
  have hok : (ofSource {} ⟨"a.mjs", by decide⟩
      "export \x7b a \x7d\nimport \x7b\x7d from './b.mjs'\n(c)").result.toBool = true := by
    decide +kernel
  have hstatements :
      (tokenize "export \x7b a \x7d\nimport \x7b\x7d from './b.mjs'\n(c)").toOption.map
        (fun tokens => (Statement.outline false tokens).statements) = some
        [⟨0, 12, .exportNames [⟨"a", "a"⟩]⟩,
          ⟨13, 37, .importFrom ⟨none, none, some []⟩ "./b.mjs"⟩] := by
    decide +kernel
  obtain ⟨m, hm⟩ := exists_eq_ok_of_toBool hok
  obtain ⟨tokens, effects, body, htokens, heffects, hcode, hseparator⟩ := ofSource_separator hm
  rw [htokens] at hstatements
  exact ⟨m, rfl, hm, tokens, effects, body, htokens, heffects, hcode,
    Option.some.inj hstatements, hseparator⟩

/-- Nothing takes the place of an import of nothing, so that the lines around it are joined to a
call. -/
theorem ofSource_import_nothing :
    (tokenize "a\nimport \x7b\x7d from './b.mjs'\n(c)").toOption.map
        (fun tokens => (Statement.outline false tokens).statements) =
      some [⟨2, 26, .importFrom ⟨none, none, some []⟩ "./b.mjs"⟩] ∧
    (effectsOf {} ⟨"a.mjs", by decide⟩ "a\nimport \x7b\x7d from './b.mjs'\n(c)").result.toOption.map
        (editsOf "a\nimport \x7b\x7d from './b.mjs'\n(c)".toList) = some [⟨2, 26, ""⟩] ∧
    (ofSource {} ⟨"a.mjs", by decide⟩ "a\nimport \x7b\x7d from './b.mjs'\n(c)").result.toOption.map
        LinkedModule.code =
      some (opening ⟨"a.mjs", by decide⟩ ++ "a\n\n(c)\n\x7d)();\n") := by
  refine ⟨?_, ?_, ?_⟩ <;> decide +kernel

end LinkedModule

end EdgeBundle
