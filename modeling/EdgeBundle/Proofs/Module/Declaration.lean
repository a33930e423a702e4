import EdgeBundle.Proofs.Module.FormRead
import EdgeBundle.Proofs.Module.Linked
import EdgeBundle.Proofs.Token.Single

/-!
# Exported declarations

An exported declaration may declare several names at once. The linker publishes the first of them
and leaves the others unpublished, without an error.

## Main definitions

* `Declarator`: a declared name with its initial value.
* `declaration`: the text of a declaration.
* `declaratorTokens`: the tokens of declarators.

## Main statements

* `ofSource_exportedDeclaration`: what comes of an exported declaration as a module.
-/

namespace EdgeBundle.LinkedModule

open Lexer Logged

/-- A declared name and the number, string or identifier that is its initial value. -/
structure Declarator where
  /-- Declared name. -/
  name : String
  /-- Text of the initial value. -/
  value : String
  /-- Class of the initial value. -/
  kind : TokenKind
  /-- The name is an identifier. -/
  isToken_name : IsToken .ident name
  /-- The initial value is one token. -/
  isToken_value : IsToken kind value
  /-- The class is a number, a string or an identifier. -/
  kind_mem : kind ∈ [TokenKind.number, .str, .ident]

/-- Words that start a declaration of names. -/
def declarationWords : List String :=
  ["const", "let", "var"]

namespace Declarator

/-- Text of a declarator. -/
def text (d : Declarator) : String :=
  d.name ++ " = " ++ d.value

/-- Whether the name or the initial value is an import or export keyword. -/
def UsesKeyword (d : Declarator) : Prop :=
  d.name ∈ Statement.keywords ∨ d.value ∈ Statement.keywords

/-- Tokens of a declarator from byte `offset` on, with the punctuator after it. -/
def tokens (d : Declarator) (offset : Nat) (after : String) : List Token :=
  let value := offset + d.name.utf8ByteSize + 3
  [⟨.ident, offset, d.name⟩, ⟨.punct, offset + d.name.utf8ByteSize + 1, "="⟩,
    ⟨d.kind, value, d.value⟩, ⟨.punct, value + d.value.utf8ByteSize, after⟩]

end Declarator

/-- Text of a declaration. -/
def declaration (word : String) (ds : List Declarator) : String :=
  word ++ " " ++ commaList (ds.map Declarator.text) ++ ";"

/-- Tokens of the declarators of a declaration from byte `offset` on. -/
def declaratorTokens (offset : Nat) : List Declarator → List Token
  | [] => []
  | [d] => d.tokens offset ";"
  | d :: ds => d.tokens offset "," ++ declaratorTokens (offset + d.text.utf8ByteSize + 2) ds

/-! ## Tokens of a declaration -/

/-- A declarator before the punctuator that ends its value. -/
theorem Declarator.scans (d : Declarator) {ctx : Context} {offset : Nat} {c : Char}
    {rest : List Char} {ts : List Token} (hc : c ∈ [',', ';'])
    (hrest : ∀ ctx, Scans ctx (offset + d.text.utf8ByteSize + 1) rest ts) :
    Scans ctx offset (d.text.toList ++ c :: rest)
      (d.tokens offset (String.singleton c) ++ ts) := by
  have htext : d.text.toList ++ c :: rest =
      d.name.toList ++ ' ' :: '=' :: ' ' :: (d.value.toList ++ c :: rest) := by
    simp [Declarator.text]
  have hsize : offset + d.text.utf8ByteSize + 1 =
      offset + d.name.utf8ByteSize + 3 + d.value.utf8ByteSize + 1 := by
    have heq : " = ".utf8ByteSize = 3 := rfl
    simp only [Declarator.text, String.utf8ByteSize_append, heq]
    omega
  have hends : isIdentPart c = false ∧ c ≠ '.' ∧ c ≠ '+' ∧ c ≠ '-' := by
    simp only [List.mem_cons, List.not_mem_nil, or_false] at hc
    rcases hc with rfl | rfl <;> decide
  have hlong : longPunct? (c :: rest) = none := by
    simp only [List.mem_cons, List.not_mem_nil, or_false] at hc
    rcases hc with rfl | rfl <;> rfl
  rw [htext]
  refine d.isToken_name.scans (by simp) (endsWord_cons (by decide)) ?_
  refine .blank (.punct (by simp) rfl (.blank ?_))
  refine d.isToken_value.scans d.kind_mem (endsWord_cons hends) ?_
  exact .punct (List.mem_cons_of_mem _ hc) hlong (hsize ▸ hrest _)

theorem scans_declarators {ctx : Context} {offset : Nat} {ds : List Declarator} (hne : ds ≠ []) :
    Scans ctx offset (commaList (ds.map Declarator.text) ++ ";").toList
      (declaratorTokens offset ds) := by
  fun_induction declaratorTokens offset ds generalizing ctx with
  | case1 => exact absurd rfl hne
  | case2 offset d =>
    have hscan : Scans ctx offset (d.text.toList ++ [';']) (d.tokens offset ";" ++ []) :=
      d.scans (by simp) fun _ => .done
    simpa [commaList] using hscan
  | case3 offset d ds hds ih =>
    obtain ⟨d', ds', rfl⟩ := List.exists_cons_of_ne_nil hds
    have htext : (commaList ((d :: d' :: ds').map Declarator.text) ++ ";").toList =
        d.text.toList ++ ',' :: ' ' ::
          (commaList ((d' :: ds').map Declarator.text) ++ ";").toList := by
      simp [commaList, String.intercalate_cons_cons]
    rw [htext]
    exact d.scans (by simp) fun _ => .blank (ih (by simp))

/-- The tokens of an exported declaration. -/
theorem tokenize_exportedDeclaration {word : String} {ds : List Declarator}
    (hword : word ∈ declarationWords) (hne : ds ≠ []) :
    tokenize ("export " ++ declaration word ds) =
        .ok (⟨.ident, 0, "export"⟩ :: ⟨.ident, 7, word⟩ ::
          declaratorTokens (8 + word.utf8ByteSize) ds) := by
  have hexport : IsToken .ident "export" := by decide +kernel
  have hisToken : IsToken .ident word := by
    simp only [declarationWords, List.mem_cons, List.not_mem_nil, or_false] at hword
    rcases hword with rfl | rfl | rfl <;> decide +kernel
  have htext : ("export " ++ declaration word ds).toList = "export".toList ++
      ' ' :: (word.toList ++ ' ' :: (commaList (ds.map Declarator.text) ++ ";").toList) := by
    simp [declaration]
  have hline : hashbangLength ("export " ++ declaration word ds).toList = 0 := by
    rw [htext]
    rfl
  rw [tokenize_eq_ok_iff, hline, List.take_zero, List.drop_zero, htext]
  refine hexport.scans (by simp) (endsWord_cons (by decide)) (.blank ?_)
  refine hisToken.scans (by simp) (endsWord_cons (by decide)) (.blank ?_)
  have hoffset : 8 + word.utf8ByteSize = 7 + word.utf8ByteSize + 1 := by omega
  rw [hoffset]
  exact scans_declarators hne

/-! ## Statements of a declaration -/

namespace Declarator

theorem kind_ne_punct (d : Declarator) : d.kind ≠ .punct := by
  intro h
  have := d.kind_mem
  simp [h] at this

/-- A value that is a keyword is an identifier. -/
theorem kind_eq_ident {d : Declarator} (h : d.value ∈ Statement.keywords) : d.kind = .ident := by
  have hvalue := d.isToken_value
  have hkeyword : IsToken .ident d.value := by
    simp only [Statement.keywords, List.mem_cons, List.not_mem_nil, or_false] at h
    rcases h with h | h <;> rw [h] <;> decide +kernel
  rw [IsToken, hkeyword] at hvalue
  simp_all

/-- A declarator without keywords is stepped over. -/
theorem outline_tokens_append {d : Declarator} (hkey : ¬ d.UsesKeyword) {offset : Nat}
    {after : String} (hafter : after ∈ Statement.separators) {ts : List Token} :
    Statement.outline false (d.tokens offset after ++ ts) = Statement.outline false ts := by
  obtain ⟨hname, hvalue⟩ := not_or.mp hkey
  simp only [tokens, List.cons_append, List.nil_append]
  rw [Statement.outline_cons_of_ne_punct (by simp) hname,
    Statement.outline_cons_of_separator rfl (by simp [Statement.separators]),
    Statement.outline_cons_of_ne_punct d.kind_ne_punct hvalue,
    Statement.outline_cons_of_separator rfl hafter]

/-- A declarator with a keyword is where the reading of statements stops. -/
theorem outline_tokens_append_of_usesKeyword {d : Declarator} (hkey : d.UsesKeyword) {offset : Nat}
    {after : String} (hafter : after ∈ Statement.separators) {ts : List Token} :
    ∃ fault, Statement.outline false (d.tokens offset after ++ ts) = ⟨[], some fault⟩ := by
  have hequals : "=" ∈ Statement.separators := by simp [Statement.separators]
  simp only [tokens, List.cons_append, List.nil_append]
  by_cases hname : d.name ∈ Statement.keywords
  · exact Statement.outline_keyword_of_separator (Statement.isKeyword_iff.mpr ⟨rfl, hname⟩) rfl
      hequals
  · have hvalue := hkey.resolve_left hname
    rw [Statement.outline_cons_of_ne_punct (by simp) hname,
      Statement.outline_cons_of_separator rfl hequals]
    exact Statement.outline_keyword_of_separator
      (Statement.isKeyword_iff.mpr ⟨kind_eq_ident hvalue, hvalue⟩) rfl hafter

end Declarator

/-- Declarators without keywords are stepped over. -/
theorem outline_declaratorTokens {offset : Nat} {ds : List Declarator}
    (hkey : ∀ d ∈ ds, ¬ d.UsesKeyword) :
    Statement.outline false (declaratorTokens offset ds) = ⟨[], none⟩ := by
  fun_induction declaratorTokens offset ds with
  | case1 => rw [Statement.outline]
  | case2 offset d =>
    have hd := hkey d List.mem_cons_self
    rw [← List.append_nil (d.tokens _ _),
      Declarator.outline_tokens_append hd (by simp [Statement.separators]), Statement.outline]
  | case3 offset d ds _ ih =>
    have hd := hkey d List.mem_cons_self
    rw [Declarator.outline_tokens_append hd (by simp [Statement.separators])]
    exact ih fun x hx => hkey x (List.mem_cons_of_mem _ hx)

/-- The first keyword in declarators is where the reading of statements stops. -/
theorem outline_declaratorTokens_of_usesKeyword {offset : Nat} {ds : List Declarator}
    (hkey : ∃ d ∈ ds, d.UsesKeyword) :
    ∃ fault, Statement.outline false (declaratorTokens offset ds) = ⟨[], some fault⟩ := by
  fun_induction declaratorTokens offset ds with
  | case1 => simp at hkey
  | case2 offset d =>
    rw [← List.append_nil (d.tokens _ _)]
    exact Declarator.outline_tokens_append_of_usesKeyword (by simpa using hkey)
      (by simp [Statement.separators])
  | case3 offset d ds _ ih =>
    have hcomma : "," ∈ Statement.separators := by simp [Statement.separators]
    by_cases hd : d.UsesKeyword
    · exact Declarator.outline_tokens_append_of_usesKeyword hd hcomma
    · rw [Declarator.outline_tokens_append hd hcomma]
      -- the keyword is in a later declarator
      exact ih (by simpa [hd] using hkey)

/-- The statement of an exported declaration takes the place of its keyword and publishes its first
name. -/
theorem outline_export {word : String} {d : Declarator} {ts : List Token}
    (hword : word ∈ declarationWords) (hts : Statement.headName? ts = some d.name) :
    Statement.outline false (⟨.ident, 0, "export"⟩ :: ⟨.ident, 7, word⟩ :: ts) =
      ⟨⟨0, 7, .exportDeclaration d.name⟩ :: (Statement.outline false ts).statements,
        (Statement.outline false ts).fault⟩ := by
  have hform : Statement.readForm ⟨.ident, 0, "export"⟩ (⟨.ident, 7, word⟩ :: ts) =
      .ok ⟨some (.exportDeclaration d.name), 7, ⟨.ident, 7, word⟩ :: ts⟩ := by
    refine (Statement.FormRead.variableDeclaration rfl ?_ hts).readForm_eq
    simpa [declarationWords, Token.isWord, or_assoc] using hword
  have hwords : ∀ w ∈ declarationWords, w ∉ Statement.keywords := by decide
  rw [Statement.outline_cons_of_form rfl hform,
    Statement.outline_cons_of_ne_punct (by simp) (hwords word hword)]

/-! ## Linking a declaration -/

/-- Cutting off the keyword leaves the declaration. -/
theorem apply_editsOf_export (text : String) (entries : List (String × String)) :
    Edit.apply (editsOf ("export " ++ text).toList [{ edit := some ⟨0, 7, ""⟩, entries }])
      ("export " ++ text).toList = text.toList := by
  have hbang : ¬ ['#', '!'] <+: "export ".toList ++ text.toList := by simp
  -- the keyword and the blank after it are the first seven bytes
  have hedit : ({ edit := some ⟨0, 7, ""⟩, entries } : Effect).edit =
      some ⟨0, utf8Width "export ".toList, ""⟩ := rfl
  rw [String.toList_append]
  exact apply_editsOf_singleton hbang hedit

/-- The wrapped code of a declaration that publishes one name. -/
theorem wrap_declaration (path : RelPath) (word name : String) (ds : List Declarator) :
    wrap path (declaration word ds).toList ⟨[], [(name, name)], false⟩ =
      opening path ++ declaration word ds ++ "\n  __MODS__[" ++ quoted path.text ++ "] = \x7b " ++
        name ++ " \x7d;\n\x7d)();\n" := by
  have hlast : (declaration word ds).toList.getLast? = some ';' := by
    rw [declaration, String.toList_append]
    exact List.getLast?_concat
  have hpair : pairText name name = name := if_pos rfl
  rw [wrap_of_semicolon hlast, registration_singleton, hpair, String.ofList_toList]
  simp only [String.append_assoc]
  rfl

section Linking

variable {config : Config} {path : RelPath} {word : String} {d : Declarator} {ds : List Declarator}

/-- The statements of an exported declaration are its keyword and those of its declarators. -/
theorem outline_exportedDeclaration (hword : word ∈ declarationWords) :
    ∃ tokens, tokenize ("export " ++ declaration word (d :: ds)) = .ok tokens ∧
      Statement.outline false tokens =
        let rest := Statement.outline false (declaratorTokens (8 + word.utf8ByteSize) (d :: ds))
        ⟨⟨0, 7, .exportDeclaration d.name⟩ :: rest.statements, rest.fault⟩ := by
  have hhead : Statement.headName? (declaratorTokens (8 + word.utf8ByteSize) (d :: ds)) =
      some d.name := by
    cases ds <;> rfl
  exact ⟨_, tokenize_exportedDeclaration hword (List.cons_ne_nil d ds),
    outline_export hword hhead⟩

/-- A keyword among the names and values of an exported declaration is an error. -/
theorem exists_error_of_usesKeyword (hword : word ∈ declarationWords)
    (hkey : ∃ x ∈ d :: ds, x.UsesKeyword) :
    ∃ e, (ofSource config path ("export " ++ declaration word (d :: ds))).result = .error e := by
  obtain ⟨tokens, htokens, houtline⟩ := @outline_exportedDeclaration word d ds hword
  obtain ⟨fault, hfault⟩ := @outline_declaratorTokens_of_usesKeyword (8 + word.utf8ByteSize) _ hkey
  refine (exists_error_ofSource_iff htokens).mpr (.inl ?_)
  rw [houtline, hfault]
  exact Option.some_ne_none fault

/-- Without keywords an exported declaration cuts off its own keyword and publishes its first
name. -/
theorem result_effectsOf_exportedDeclaration (hword : word ∈ declarationWords)
    (hkey : ∀ x ∈ d :: ds, ¬ x.UsesKeyword) :
    (effectsOf config path ("export " ++ declaration word (d :: ds))).result =
      .ok [{ edit := some ⟨0, 7, ""⟩, entries := [(d.name, d.name)] }] := by
  obtain ⟨tokens, htokens, houtline⟩ := @outline_exportedDeclaration word d ds hword
  rw [outline_declaratorTokens hkey] at houtline
  refine result_effectsOf_eq_ok_iff.mpr ⟨tokens, htokens, ?_, ?_⟩
  · rw [houtline]
  · rw [houtline]
    exact .cons rfl .nil

/-- The first name alone is every declared name exactly if no other is declared. -/
theorem forall_count_name_eq_one_iff (hnames : ((d :: ds).map Declarator.name).Nodup) :
    (∀ x ∈ d :: ds, [d.name].count x.name = 1) ↔ ds = [] := by
  constructor
  · intro hcount
    cases ds with
    | nil => rfl
    | cons d' ds =>
      have hne : d.name ≠ d'.name := fun h => by simp [h] at hnames
      have hzero : [d.name].count d'.name = 0 := by simp [hne]
      rw [hcount d' (by simp)] at hzero
      cases hzero
  · rintro rfl x hx
    rw [List.mem_singleton.mp hx, List.count_singleton_self]

/-- An exported declaration as a module publishes its first name and no other. So it publishes all
that it declares exactly if it declares one name. A keyword among the names and values is an
error. -/
theorem ofSource_exportedDeclaration (hword : word ∈ declarationWords)
    (hnames : ((d :: ds).map Declarator.name).Nodup) :
    ((∃ x ∈ d :: ds, x.UsesKeyword) →
      ∃ e, (ofSource config path ("export " ++ declaration word (d :: ds))).result = .error e) ∧
    ((∀ x ∈ d :: ds, ¬ x.UsesKeyword) →
      ∃ m, (ofSource config path ("export " ++ declaration word (d :: ds))).result = .ok m ∧
        m.exports = [d.name] ∧
        m.code = opening path ++ declaration word (d :: ds) ++ "\n  __MODS__[" ++
          quoted path.text ++ "] = \x7b " ++ d.name ++ " \x7d;\n\x7d)();\n" ∧
        ((∀ x ∈ d :: ds, m.exports.count x.name = 1) ↔ ds = [])) := by
  refine ⟨exists_error_of_usesKeyword hword, fun hkey => ?_⟩
  refine ⟨_, result_ofSource_eq_ok_iff.mpr
    ⟨_, result_effectsOf_exportedDeclaration hword hkey, rfl⟩, rfl, ?_,
    forall_count_name_eq_one_iff hnames⟩
  simp only [ofEffects, apply_editsOf_export]
  exact wrap_declaration path word d.name (d :: ds)

/-- Three names with values of three classes. -/
theorem ofSource_exportedDeclaration_let :
    ∃ m, (ofSource {} ⟨"a.mjs", by decide⟩ "export let a = 1, b = 'x', c = d;").result = .ok m ∧
      m.exports = ["a"] := by
  obtain ⟨m, hm, hexports, -⟩ := (@ofSource_exportedDeclaration {} ⟨"a.mjs", by decide⟩ "let"
    ⟨"a", "1", .number, by decide +kernel, by decide +kernel, by decide⟩
    [⟨"b", "'x'", .str, by decide +kernel, by decide +kernel, by decide⟩,
      ⟨"c", "d", .ident, by decide +kernel, by decide +kernel, by decide⟩]
    (by decide) (by simp)).2 (by simp [Declarator.UsesKeyword, Statement.keywords])
  exact ⟨m, hm, hexports⟩

/-- The second name of a declaration is lost without an error. -/
theorem ofSource_export_const_pair :
    (ofSource {} ⟨"a.mjs", by decide⟩ "export const a = 1, b = 2;").result.toOption.map
      LinkedModule.exports = some ["a"] := by
  decide +kernel

end Linking

end EdgeBundle.LinkedModule
