import EdgeBundle.Proofs.Module.Change
import EdgeBundle.Proofs.Module.DefaultExport
import EdgeBundle.Proofs.Token.Regex

/-!
# Regular expressions as default exports

A regular expression may start after an assignment sign, but `default` is not among the keywords
after which one may start. So a literal that is exported as the default is read as divisions of what
stands between its slashes. Where that has no tokens, the module cannot be linked; where it has, the
literal is kept if no statement is found in it that is changed.

## Main definitions

* `exportedDefault`, `assignedDefault`: a text that is exported as the default, and the body of the
  module that comes of it.
* `LinksTo`: what a source is linked to.

## Main statements

* `tokenize_exportedDefault_iff`: the tokens of a text that is exported as the default.
* `linksTo_assignedDefault_iff`: which texts are kept.
* `ofSource_regexDefault`: regular expressions that are exported as the default.
-/

namespace EdgeBundle.LinkedModule

open Lexer Logged Statement

/-- A source that exports a text as the default. -/
def exportedDefault (text : List Char) : List Char :=
  "export default".toList ++ ' ' :: (text ++ [';'])

/-- A body that assigns a text to the local for the default export. -/
def assignedDefault (text : List Char) : List Char :=
  (defaultLocal ++ " =").toList ++ ' ' :: (text ++ [';'])

/-- The source is linked with the body, and exports the names and makes the references. -/
def LinksTo (config : Config) (path : RelPath) (src body : List Char) (exports : List String)
    (references : List Reference) : Prop :=
  ∃ effects, (effectsOf config path (String.ofList src)).result = .ok effects ∧
    Edit.apply (editsOf src effects) src = body ∧
    (ofSource config path (String.ofList src)).result =
      .ok ⟨path, wrap path body (Manifest.ofEffects effects), exports, references⟩

/-- The context after the keywords of a default export. -/
def defaultContext : Context :=
  Context.push (Context.push {} (wordToken 0 "export".toList)) (wordToken 7 "default".toList)

/-- What `export default` contributes before an expression. -/
def defaultEffect : Effect :=
  { edit := some ⟨0, 14, defaultLocal ++ " ="⟩, setsDefault := true }

section Sources

variable {config : Config} {path : RelPath} {text : List Char} {ts us : List Token}

/-- Behind the keywords the text is read on its own, as what follows a name. -/
theorem tokenize_exportedDefault_iff :
    tokenize (String.ofList (exportedDefault text)) = .ok ts ↔
      ∃ us, ts = wordToken 0 "export".toList :: wordToken 7 "default".toList :: us ∧
        Scans defaultContext 15 (text ++ [';']) us := by
  have hexport : IsName "export".toList := @isName_of_all 'e' "xport".toList rfl (by decide)
  have hdefault : IsName "default".toList := @isName_of_all 'd' "efault".toList rfl (by decide)
  have hsplit : exportedDefault text =
      "export".toList ++ ' ' :: ("default".toList ++ ' ' :: (text ++ [';'])) := rfl
  have hrest (ts : List Token) :
      Scans (Context.push {} (wordToken 0 "export".toList)) 6
        (' ' :: ("default".toList ++ ' ' :: (text ++ [';']))) ts ↔
      ∃ us, ts = wordToken 7 "default".toList :: us ∧
        Scans defaultContext 15 (text ++ [';']) us := by
    rw [scans_blank_iff, hdefault.scans_iff (endsName_cons (by decide))]
    simp only [scans_blank_iff]
    rfl
  rw [hsplit, hexport.tokenize_iff (endsName_cons (by decide))]
  constructor
  · rintro ⟨ts', rfl, hrun⟩
    obtain ⟨us, rfl, hrun'⟩ := (hrest ts').mp hrun
    exact ⟨us, rfl, hrun'⟩
  · rintro ⟨us, rfl, hrun⟩
    exact ⟨_, rfl, (hrest _).mpr ⟨us, rfl, hrun⟩⟩

theorem isWord_wordToken (start : Nat) (w : String) :
    (wordToken start w.toList).isWord w = true :=
  Token.isWord_iff.mpr ⟨rfl, String.ofList_toList⟩

theorem newline_not_mem_exportedDefault (hline : '\n' ∉ text) :
    '\n' ∉ exportedDefault text := by
  intro hmem
  rcases List.mem_append.mp hmem with hmem | hmem
  · exact absurd hmem (by decide)
  · simp [hline] at hmem

/-- A source without newlines whose tokens cannot be read. -/
theorem result_ofSource_of_lexError {src : String} {e : LexError} (hline : '\n' ∉ src.toList)
    (h : tokenize src = .error e) :
    (ofSource config path src).result =
      .error (.unsupportedSyntax path.text 1 (.unclosed e.fault)) := by
  have heffects : (effectsOf config path src).result =
      .error (.unsupportedSyntax path.text 1 (.unclosed e.fault)) := by
    rw [effectsOf]
    refine result_bind_of_error ?_ _
    rw [result_ofExcept, h, ← lineAt_of_newline_not_mem hline e.offset]
    rfl
  exact result_bind_of_error heffects _

/-- What a text that is exported as the default contributes, if it declares no name. -/
theorem result_effectsOf_exportedDefault_iff {effects : List Effect} (hline : '\n' ∉ text)
    (htokens : tokenize (String.ofList (exportedDefault text)) =
      .ok (wordToken 0 "export".toList :: wordToken 7 "default".toList :: us))
    (hname : declaredName? us = none) :
    (effectsOf config path (String.ofList (exportedDefault text))).result = .ok effects ↔
      (outline false us).fault = none ∧ ∃ later, effects = defaultEffect :: later ∧
        List.Forall₂ (fun s e => (effect (.ofConfig config path) 1 s).result = .ok e)
          (outline false us).statements later := by
  have hlines (offset : Nat) :
      lineAt (String.ofList (exportedDefault text)).toList offset = 1 := by
    rw [String.toList_ofList]
    exact lineAt_of_newline_not_mem (newline_not_mem_exportedDefault hline) offset
  have houtline := @outline_exportDefault (wordToken 0 "export".toList)
    (wordToken 7 "default".toList) us (isWord_wordToken 0 _) (isWord_wordToken 7 _) hname
  simp only [result_effectsOf_eq_ok_iff, hlines]
  constructor
  · rintro ⟨tokens, htokens', hfault, heffects⟩
    obtain rfl := Except.ok.inj (htokens.symm.trans htokens')
    rw [houtline] at hfault heffects
    obtain ⟨first, later, hfirst, hlater, rfl⟩ := List.forall₂_cons_left_iff.mp heffects
    cases hfirst
    exact ⟨hfault, later, rfl, hlater⟩
  · rintro ⟨hfault, later, rfl, hlater⟩
    refine ⟨_, htokens, ?_, ?_⟩
    · rw [houtline]
      exact hfault
    · rw [houtline]
      exact .cons rfl hlater

/-- A text without newlines that is exported as the default, and declares no name, is kept exactly
if the statements that are found in it contribute nothing. -/
theorem linksTo_assignedDefault_iff (hline : '\n' ∉ text)
    (htokens : tokenize (String.ofList (exportedDefault text)) =
      .ok (wordToken 0 "export".toList :: wordToken 7 "default".toList :: us))
    (hname : declaredName? us = none) :
    LinksTo config path (exportedDefault text) (assignedDefault text) ["default"] [] ↔
      (outline false us).fault = none ∧ ∀ s ∈ (outline false us).statements,
        (effect (.ofConfig config path) 1 s).result = .ok {} := by
  have hedits (later : List Effect) : editsOf (exportedDefault text) (defaultEffect :: later) =
      ⟨0, utf8Width "export default".toList, defaultLocal ++ " ="⟩ ::
        later.filterMap Effect.edit := rfl
  constructor
  · rintro ⟨effects, heffects, hbody, hmodule⟩
    obtain ⟨hfault, later, rfl, hlater⟩ :=
      (result_effectsOf_exportedDefault_iff hline htokens hname).mp heffects
    have hsame := Except.ok.inj
      ((result_ofSource_eq_ok_iff.mpr ⟨_, heffects, rfl⟩).symm.trans hmodule)
    have hreferences : later.filterMap Effect.reference = [] :=
      congrArg LinkedModule.references hsame
    have hentries : later.flatMap Effect.entries = [] := by
      have hnames : (later.flatMap Effect.entries).map Prod.fst ++ ["default"] = ["default"] :=
        congrArg LinkedModule.exports hsame
      rwa [List.append_left_eq_self, List.map_eq_nil_iff] at hnames
    -- what follows the keywords is the same in the body
    obtain ⟨_, htokens', -, hall⟩ := result_effectsOf_eq_ok_iff.mp heffects
    have hsplices := Edit.splices_apply (ordered_editsOf htokens' hall)
    rw [String.toList_ofList, hbody, hedits] at hsplices
    obtain ⟨out, hout, hrest⟩ := hsplices.exists_of_cons rfl (Nat.zero_add _).symm
    obtain rfl := List.append_cancel_left hout
    have hnone := filterMap_edit_eq_nil htokens
      (by
        rw [outline_exportDefault (isWord_wordToken 0 _) (isWord_wordToken 7 _) hname]
        exact List.subset_cons_self _ _)
      hlater hreferences hentries String.toList_ofList hrest
    refine ⟨hfault, fun s hs => ?_⟩
    obtain ⟨e, he, heffect⟩ := exists_mem_of_forall₂ hlater hs
    rw [heffect, eq_empty_of_edit_eq_none heffect (List.filterMap_eq_nil_iff.mp hnone e he)]
  · rintro ⟨hfault, hall⟩
    have heffects := (result_effectsOf_exportedDefault_iff hline htokens hname).mpr ⟨hfault,
      (outline false us).statements.map fun _ => {}, rfl, by
        rw [List.forall₂_map_right_iff, List.forall₂_same]
        exact hall⟩
    have hnone : ((outline false us).statements.map fun _ => ({} : Effect)).filterMap Effect.edit =
        [] := by
      simp
    have hbody : Edit.apply (editsOf (exportedDefault text) (defaultEffect ::
        (outline false us).statements.map fun _ => {})) (exportedDefault text) =
          assignedDefault text := by
      rw [hedits, hnone]
      exact Edit.apply_start _ _ _
    refine ⟨_, heffects, hbody, result_ofSource_eq_ok_iff.mpr ⟨_, heffects, ?_⟩⟩
    rw [String.toList_ofList, ofEffects, hbody]
    simp [Manifest.names, Manifest.ofEffects, defaultEffect]

/-- In the body that assigns it a literal is one regular expression. -/
theorem tokenize_assignedDefault (h : RegexLiteral text) :
    tokenize (String.ofList (assignedDefault text)) =
      .ok [wordToken 0 defaultLocal.toList, ⟨.punct, 19, "="⟩, ⟨.regex, 21, String.ofList text⟩,
        ⟨.punct, 21 + utf8Width text, ";"⟩] := by
  have hlocal : IsName defaultLocal.toList :=
    @isName_of_all '_' "_DEFAULT_EXPORT__".toList rfl (by decide)
  have hsplit : assignedDefault text =
      defaultLocal.toList ++ ' ' :: '=' :: ' ' :: (text ++ [';']) := rfl
  rw [hsplit, hlocal.tokenize_iff (endsName_cons (by decide))]
  refine ⟨_, rfl, .blank (.punct (by simp) rfl (.blank ?_))⟩
  exact h.scans rfl (endsName_cons (by decide)) (.punct (by simp) rfl .done)

/-- What starts with a punctuator declares no name. -/
theorem declaredName?_of_punct {t : Token} (ht : t.kind = .punct) (ts : List Token) :
    declaredName? (t :: ts) = none := by
  simp [declaredName?, Token.isWord, ht]

/-- Behind the keywords of a default export a literal starts with a division. -/
theorem exists_division_of_exportedDefault (h : RegexLiteral text)
    (hts : tokenize (String.ofList (exportedDefault text)) = .ok ts) :
    ∃ slash us, ts = wordToken 0 "export".toList :: wordToken 7 "default".toList :: slash :: us ∧
      slash.kind = .punct ∧ slash.start = 15 ∧ slash.text.toList.head? = some '/' := by
  obtain ⟨us, rfl, hrun⟩ := tokenize_exportedDefault_iff.mp hts
  obtain ⟨slash, us, rfl, hslash⟩ := h.exists_division rfl hrun
  exact ⟨slash, us, rfl, hslash⟩

end Sources

/-- A regular expression that is exported as the default is one token of the body that assigns it.
But in the source its first slash is a division. If what follows has no tokens, the module cannot be
linked. Otherwise the literal is kept, and the module exports a default and refers to nothing,
exactly if the statements that are found inside the literal contribute nothing. -/
theorem ofSource_regexDefault (config : Config) (path : RelPath) {literal : List Char}
    (h : RegexLiteral literal) :
    tokenize (String.ofList (assignedDefault literal)) =
      .ok [wordToken 0 defaultLocal.toList, ⟨.punct, 19, "="⟩,
        ⟨.regex, 21, String.ofList literal⟩, ⟨.punct, 21 + utf8Width literal, ";"⟩] ∧
    (∀ ts, tokenize (String.ofList (exportedDefault literal)) = .ok ts → ∃ slash us,
      ts = wordToken 0 "export".toList :: wordToken 7 "default".toList :: slash :: us ∧
        slash.kind = .punct ∧ slash.start = 15 ∧ slash.text.toList.head? = some '/') ∧
    (∀ e, tokenize (String.ofList (exportedDefault literal)) = .error e →
      (ofSource config path (String.ofList (exportedDefault literal))).result =
        .error (.unsupportedSyntax path.text 1 (.unclosed e.fault))) ∧
    (LinksTo config path (exportedDefault literal) (assignedDefault literal) ["default"] [] ↔
      ∃ us, tokenize (String.ofList (exportedDefault literal)) =
          .ok (wordToken 0 "export".toList :: wordToken 7 "default".toList :: us) ∧
        (outline false us).fault = none ∧ ∀ s ∈ (outline false us).statements,
          (effect (.ofConfig config path) 1 s).result = .ok {}) := by
  refine ⟨tokenize_assignedDefault h, fun ts hts => exists_division_of_exportedDefault h hts,
    fun e he => result_ofSource_of_lexError ?_ he, fun hlinks => ?_, ?_⟩
  · rw [String.toList_ofList]
    exact newline_not_mem_exportedDefault h.newline_not_mem
  · have ⟨effects, heffects, _⟩ := hlinks
    obtain ⟨ts, hts, -⟩ := result_effectsOf_eq_ok_iff.mp heffects
    obtain ⟨slash, us, rfl, hslash, -⟩ := exists_division_of_exportedDefault h hts
    exact ⟨_, hts, (linksTo_assignedDefault_iff h.newline_not_mem hts
      (declaredName?_of_punct hslash us)).mp hlinks⟩
  · rintro ⟨us, hts, hkept⟩
    obtain ⟨slash, us', heq, hslash, -⟩ := exists_division_of_exportedDefault h hts
    obtain rfl : us = slash :: us' := (List.cons.inj (List.cons.inj heq).2).2
    exact (linksTo_assignedDefault_iff h.newline_not_mem hts
      (declaredName?_of_punct hslash us')).mpr hkept

/-- A literal with an escape, a class and flags is kept, although a call of `import` is found in
it. -/
theorem ofSource_regexDefault_call :
    ∃ literal, literal = "/a\\.[b]import(c)/g".toList ∧ RegexLiteral literal ∧
      LinksTo {} ⟨"a.mjs", by decide⟩ (exportedDefault literal) (assignedDefault literal)
        ["default"] [] := by
  have hbody : RegexBody ('a' :: '\\' :: '.' :: '[' :: (['b'] ++ ']' ::
      ("import(c)".toList ++ []))) :=
    .char rfl (by decide) (.escape rfl (.ofClass (.char rfl (by decide) .nil)
      (.plain_append (by decide) .nil)))
  have hliteral := RegexLiteral.mk hbody (by simp) (by simp)
    (List.forall_mem_singleton.mpr ⟨(rfl : isIdentPart 'g' = true), by decide, rfl⟩)
  refine ⟨_, rfl, hliteral, ?_⟩
  obtain ⟨-, -, -, hlinks⟩ := ofSource_regexDefault {} ⟨"a.mjs", by decide⟩ hliteral
  refine hlinks.mpr ⟨[⟨.punct, 15, "/"⟩, ⟨.ident, 16, "a\\"⟩, ⟨.punct, 18, "."⟩,
    ⟨.punct, 19, "["⟩, ⟨.ident, 20, "b"⟩, ⟨.punct, 21, "]"⟩, ⟨.ident, 22, "import"⟩,
    ⟨.punct, 28, "("⟩, ⟨.ident, 29, "c"⟩, ⟨.punct, 30, ")"⟩, ⟨.punct, 31, "/"⟩,
    ⟨.ident, 32, "g"⟩, ⟨.punct, 33, ";"⟩], ?_, ?_, ?_⟩ <;> decide +kernel

/-- A literal whose closing slash is read as the start of another one leaves the module unread, and
one with a call of `import` in it makes a reference. -/
theorem ofSource_regexDefault_slash :
    ∃ unread changed m, unread = "/a+/".toList ∧ changed = "/import('b')/".toList ∧
      (∀ literal ∈ [unread, changed], RegexLiteral literal ∧
        ¬ LinksTo {} ⟨"a.mjs", by decide⟩ (exportedDefault literal) (assignedDefault literal)
          ["default"] []) ∧
      (ofSource {} ⟨"a.mjs", by decide⟩ (String.ofList (exportedDefault unread))).result =
        .error (.unsupportedSyntax "a.mjs" 1 (.unclosed .unclosedRegex)) ∧
      (ofSource {} ⟨"a.mjs", by decide⟩ (String.ofList (exportedDefault changed))).result = .ok m ∧
      m.references = [⟨"b", "b", .onCall, 1⟩] := by
  have hplain {cs : List Char} (hne : cs ≠ []) (hcomment : cs.head? ≠ some '*')
      (hcs : cs.all (fun c => !isLineEnd c && decide (c ∉ ['/', '[', '\\'])) = true) :
      RegexLiteral ('/' :: (cs ++ ['/'])) := by
    have hbody := RegexBody.plain_append hcs .nil
    rw [List.append_nil] at hbody
    exact .mk hbody hne hcomment (by simp)
  have hunread : (ofSource {} ⟨"a.mjs", by decide⟩
      (String.ofList (exportedDefault "/a+/".toList))).result =
        .error (.unsupportedSyntax "a.mjs" 1 (.unclosed .unclosedRegex)) := by
    decide +kernel
  have hchanged : ((ofSource {} ⟨"a.mjs", by decide⟩
      (String.ofList (exportedDefault "/import('b')/".toList))).result.toOption.map
        LinkedModule.references) = some [⟨"b", "b", .onCall, 1⟩] := by
    decide +kernel
  obtain ⟨m, hm, hreferences⟩ := exists_eq_ok_of_map hchanged
  refine ⟨_, _, m, rfl, rfl, ?_, hunread, hm, hreferences⟩
  simp only [List.forall_mem_cons, List.not_mem_nil, false_implies, implies_true, and_true]
  refine ⟨⟨@hplain "a+".toList (by decide) (by decide) (by decide), ?_⟩,
    ⟨@hplain "import('b')".toList (by decide) (by decide) (by decide), ?_⟩⟩
  · rintro ⟨_, -, -, hok⟩
    rw [hunread] at hok
    cases hok
  · rintro ⟨_, -, -, hok⟩
    rw [hm] at hok
    cases hok
    cases hreferences

end EdgeBundle.LinkedModule
