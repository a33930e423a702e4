import EdgeBundle.Proofs.Module.ReferenceForm
import EdgeBundle.Proofs.Module.StaticImport
import EdgeBundle.Proofs.Path.Route
import EdgeBundle.Proofs.Text.Quoted

/-!
# Registry keys

A module publishes what it exports under the quoted form of its path. Another module that names it
by a relative specifier reads from the registry under the same key, in whatever form it does so.

## Main definitions

* `ReferenceForm.body`, `ReferenceForm.published`: what becomes of a module that is a reference.

## Main statements

* `result_effect_form`: what a reference contributes to its module.
* `registryKey_agrees`: all forms read under the key under which the other module publishes.
-/

namespace EdgeBundle.LinkedModule

open Lexer

/-- Reading access to the registry under a key. -/
def registryRead (key : String) : String :=
  "__MODS__[" ++ key ++ "]"

/-- What is registered under a key, or an object without members. -/
def namespaceRead (key : String) : String :=
  registryRead key ++ " || \x7b\x7d"

/-- Assignment of members to the registry under a key. -/
def registryAssignment (key members : String) : String :=
  "  " ++ registryRead key ++ " = \x7b " ++ members ++ " \x7d;\n"

/-- Declaration of constants. -/
def constText (pattern value : String) : String :=
  "const " ++ pattern ++ " = " ++ value ++ ";"

namespace ReferenceForm

/-- When a reference of the form is read. -/
def kind : ReferenceForm → ReferenceKind
  | call => .onCall
  | _ => .atLoad

/-- What takes the place of the statement, with the registry read under `key`. -/
def replacement (x y key : String) : ReferenceForm → String
  | names => constText ("\x7b " ++ pairText x y ++ " \x7d") (namespaceRead key)
  | whole => constText y (namespaceRead key)
  | default => constText y ("(" ++ namespaceRead key ++ ").default")
  | reexport => ";"
  | call => "Promise.resolve(" ++ registryRead key ++ ")"

/-- Body of a module that consists of the statement, with the registry read under `key`. -/
def body (x y key : String) (f : ReferenceForm) : String :=
  f.replacement x y key ++ f.tail

/-- Expression for a published name, with the registry read under `key`. -/
def entries (x y key : String) : ReferenceForm → List (String × String)
  | reexport => [(y, "(" ++ namespaceRead key ++ ")." ++ x)]
  | _ => []

/-- What the module at `path` publishes, with the registry read under `key`. -/
def published (path : RelPath) (x y key : String) : ReferenceForm → String
  | reexport => registryAssignment (quoted path.text)
      (pairText y ("(" ++ namespaceRead key ++ ")." ++ x))
  | _ => ""

/-- What the statement contributes to its module. -/
def contribution (x y specifier target : String) (line start stop : Nat) (f : ReferenceForm) :
    Effect :=
  { edit := some ⟨start, stop, f.replacement x y (quoted target)⟩
    reference := some ⟨specifier, target, f.kind, line⟩
    entries := f.entries x y (quoted target) }

end ReferenceForm

/-! ## Sources -/

theorem object_registry (key : String) : (Source.registry key).object = namespaceRead key := by
  apply String.toList_injective
  simp [Source.object, namespaceRead, registryRead, registry]

theorem defaultValue_registry (key : String) :
    (Source.registry key).defaultValue = "(" ++ namespaceRead key ++ ").default" := by
  apply String.toList_injective
  simp [Source.defaultValue, namespaceRead, registryRead, registry]

/-- The default export is read like any other member. -/
theorem member_registry (key name : String) :
    (Source.registry key).member name = "(" ++ namespaceRead key ++ ")." ++ name := by
  apply String.toList_injective
  rw [Source.member]
  split
  next hname =>
    rw [defaultValue_registry, hname]
    simp
  next => simp [namespaceRead, registryRead, registry]

/-- One published name is assigned to the registry under the quoted path of its module. -/
theorem registration_eq_assignment (path : RelPath) (name value : String) :
    registration path ⟨[], [(name, value)], false⟩ =
      registryAssignment (quoted path.text) (pairText name value) := by
  rw [registration_singleton]
  apply String.toList_injective
  simp [registryAssignment, registryRead]

variable {x y l : String}

/-- A reference reads under the quoted path that its specifier leads to. -/
theorem result_effect_form {site : Site} {specifier target : String}
    (hclass : site.classify specifier = .ok (.relative target)) (line start stop : Nat)
    (f : ReferenceForm) :
    (effect site line ⟨start, stop, f.form x y specifier⟩).result =
      .ok (f.contribution x y specifier target line start stop) := by
  have hbinds := Site.binds_of_isBuiltin hclass rfl
  have hreference : some ⟨specifier, target, f.kind, line⟩ =
      site.reference? specifier f.kind line := by
    rw [Site.reference?, hclass]
  rw [ReferenceForm.contribution, hreference, result_effect_eq_ok_iff]
  -- the texts of a form and of its source differ in how they are put together only
  cases f with
  | names =>
    have htext : bindingText ⟨none, none, some [⟨x, y⟩]⟩ (Specifier.relative target).source =
        ReferenceForm.names.replacement x y (quoted target) :=
      congrArg (constText ("\x7b " ++ pairText x y ++ " \x7d")) (object_registry _)
    rw [← htext]
    exact .importFrom hbinds
  | whole =>
    have htext : bindingText ⟨none, some y, none⟩ (Specifier.relative target).source =
        ReferenceForm.whole.replacement x y (quoted target) :=
      congrArg (constText y) (object_registry _)
    rw [← htext]
    exact .importFrom hbinds
  | default =>
    have htext : bindingText ⟨some y, none, none⟩ (Specifier.relative target).source =
        ReferenceForm.default.replacement x y (quoted target) :=
      congrArg (constText y) (defaultValue_registry _)
    rw [← htext]
    exact .importFrom hbinds
  | reexport =>
    have hentries : [(y, (Specifier.relative target).source.member x)] =
        ReferenceForm.reexport.entries x y (quoted target) :=
      congrArg (fun value => [(y, value)]) (member_registry _ x)
    rw [← hentries]
    exact .exportNamesFrom hbinds
  | call =>
    have htext : "Promise.resolve(" ++ registry ++ "[" ++ quoted target ++ "])" =
        ReferenceForm.call.replacement x y (quoted target) := by
      change _ = "Promise.resolve(" ++ registryRead (quoted target) ++ ")"
      apply String.toList_injective
      simp [registryRead, registry]
    rw [← htext]
    exact .importCall hclass rfl

/-! ## Modules -/

section Modules

variable {config : Config} {a b : RelPath}

theorem classify_ofConfig (config : Config) (r : Route a b) :
    (Site.ofConfig config a).classify r.specifier = .ok (.relative b.text) := by
  rw [Site.classify, Site.ofConfig, r.classify_specifier]
  rfl

namespace ReferenceForm

/-- A body ends with a semicolon. -/
theorem exists_body_eq (key : String) (f : ReferenceForm) : ∃ s, f.body x y key = s ++ ";" := by
  cases f with
  | names | whole | default => exact ⟨_, String.append_empty⟩
  | reexport => exact ⟨"", String.append_empty.trans String.empty_append.symm⟩
  | call => exact ⟨_, rfl⟩

theorem registration_entries (path : RelPath) (key : String) (f : ReferenceForm) :
    registration path ⟨[], f.entries x y key, false⟩ = f.published path x y key := by
  cases f with
  | reexport => exact registration_eq_assignment _ _ _
  | _ => rfl

/-- The code of a module that consists of a reference. -/
theorem code_ofEffects_contribution (path : RelPath) (specifier target : String) (line : Nat)
    (f : ReferenceForm) :
    (ofEffects path (f.text x y specifier).toList [f.contribution x y specifier target line 0
        (f.statement x y specifier).utf8ByteSize]).code =
      opening path ++ f.body x y (quoted target) ++ "\n" ++ f.published path x y (quoted target) ++
        "\x7d)();\n" := by
  -- the semicolon after a call is left from the source
  have hbody : (f.replacement x y (quoted target)).toList ++ f.tail.toList =
      (f.body x y (quoted target)).toList := String.toList_append.symm
  have hlast : (f.body x y (quoted target)).toList.getLast? = some ';' := by
    obtain ⟨s, hs⟩ := @exists_body_eq x y (quoted target) f
    rw [hs, String.toList_append]
    exact List.getLast?_concat
  have hmanifest : Manifest.ofEffects [f.contribution x y specifier target line 0
      (f.statement x y specifier).utf8ByteSize] =
        ⟨[], f.entries x y (quoted target), false⟩ := by
    simp [Manifest.ofEffects, contribution]
  rw [text, String.toList_append, code_ofEffects_singleton f.not_hashbang_statement
    (by rw [utf8Width_toList]; rfl) (hbody ▸ hlast), hbody, hmanifest, String.ofList_toList,
    registration_entries]

/-- A module that consists of a reference becomes the body of the reference, with what it
publishes. -/
theorem result_ofSource_text (hx : IsToken .ident x) (hy : IsToken .ident y) (hfrom : y ≠ "from")
    (hquote : '\'' ∉ b.chars) (hline : '\n' ∉ b.chars) (r : Route a b) (f : ReferenceForm) :
    ∃ m, (ofSource config a (f.text x y r.specifier)).result = .ok m ∧
      m.references = [⟨r.specifier, b.text, f.kind, 1⟩] ∧
      m.code = opening a ++ f.body x y (quoted b.text) ++ "\n" ++
        f.published a x y (quoted b.text) ++ "\x7d)();\n" := by
  -- a path in canonical form has no backslash, so the specifier has no escapes
  have hescape : '\\' ∉ r.specifier.toList :=
    r.not_mem_specifier (by decide) (by decide) b.canonical.1
  have htokens := tokenize_text hx hy (r.not_mem_specifier (by decide) (by decide) hquote) hescape
    (r.not_mem_specifier (by decide) (by decide) hline) f
  obtain ⟨rest, hread, hkeys⟩ := @exists_readForm_eq_ok x y _ hescape hfrom f
  have heffect : (effect (.ofConfig config a) (lineAt (f.text x y r.specifier).toList 0)
      ⟨0, (f.statement x y r.specifier).utf8ByteSize, f.form x y r.specifier⟩).result =
        .ok (f.contribution x y r.specifier b.text 1 0
          (f.statement x y r.specifier).utf8ByteSize) := by
    rw [lineAt_zero]
    exact result_effect_form (classify_ofConfig config r) 1 0 _ f
  exact ⟨_, result_ofSource_of_form htokens f.startsForm_tokens hread hkeys heffect, rfl,
    f.code_ofEffects_contribution _ _ _ _⟩

end ReferenceForm

/-! ## Exports -/

/-- A module that consists of an export of a local name publishes it under its own quoted path. -/
theorem result_ofSource_export (hl : IsToken .ident l) (hx : IsToken .ident x) :
    ∃ m, (ofSource config b (exportText l x)).result = .ok m ∧
      m.code = opening b ++ ";" ++ "\n" ++
        registryAssignment (quoted b.text) (pairText x l) ++ "\x7d)();\n" := by
  obtain ⟨ts, htokens, hstarts, hread⟩ := exists_readForm_export hl hx
  have heffect : (effect (.ofConfig config b) (lineAt (exportText l x).toList 0)
      ⟨0, (exportText l x).utf8ByteSize, .exportNames [⟨l, x⟩]⟩).result =
        .ok { edit := some ⟨0, (exportText l x).utf8ByteSize, ";"⟩, entries := [(x, l)] } := rfl
  have hbang : ¬ ['#', '!'] <+: (exportText l x).toList ++ [] := by simp [exportText]
  have hmanifest : registration b (Manifest.ofEffects
      [{ edit := some ⟨0, (exportText l x).utf8ByteSize, ";"⟩, entries := [(x, l)] }]) =
        registryAssignment (quoted b.text) (pairText x l) :=
    registration_eq_assignment _ _ _
  have hcode := @code_ofEffects_singleton b (exportText l x).toList [] ";"
    { edit := some ⟨0, (exportText l x).utf8ByteSize, ";"⟩, entries := [(x, l)] } hbang
    (by rw [utf8Width_toList]) rfl
  refine ⟨_, result_ofSource_of_form htokens hstarts hread (by simp) heffect, ?_⟩
  rw [List.append_nil, hmanifest] at hcode
  exact hcode

/-- Two modules agree on the registry key. A reference by a relative specifier reads from the
registry under the path of the module at its end, as a JSON string, in every form. That module
publishes what it exports under the same key. -/
theorem registryKey_agrees (hx : IsToken .ident x) (hy : IsToken .ident y) (hl : IsToken .ident l)
    (hfrom : y ≠ "from") (hquote : '\'' ∉ b.chars) (hline : '\n' ∉ b.chars) :
    Json.parse? (quoted b.text) = some (.string b.text) ∧
    (∃ r : Route a b, r.IsDirect) ∧
    (∀ (r : Route a b) (f : ReferenceForm),
      ∃ m, (ofSource config a (f.text x y r.specifier)).result = .ok m ∧
        m.references = [⟨r.specifier, b.text, f.kind, 1⟩] ∧
        m.code = opening a ++ f.body x y (quoted b.text) ++ "\n" ++
          f.published a x y (quoted b.text) ++ "\x7d)();\n") ∧
    ∃ m, (ofSource config b (exportText l x)).result = .ok m ∧
      m.code = opening b ++ ";" ++ "\n" ++
        registryAssignment (quoted b.text) (pairText x l) ++ "\x7d)();\n" :=
  ⟨Json.parse?_quoted b.text, Route.exists_isDirect a b,
    fun r f => f.result_ofSource_text hx hy hfrom hquote hline r, result_ofSource_export hl hx⟩

/-- A module in one directory of chunks imports from a module in another one. -/
theorem registryKey_agrees_siblings :
    ∃ m, (ofSource {} ⟨"chunks/_routes/home.mjs", by decide⟩
        "import \x7b helper as h \x7d from '../_libs/util.mjs';").result = .ok m ∧
      m.references = [⟨"../_libs/util.mjs", "chunks/_libs/util.mjs", .atLoad, 1⟩] ∧
      m.code = opening ⟨"chunks/_routes/home.mjs", by decide⟩ ++
        "const \x7b helper: h \x7d = __MODS__[" ++ quoted "chunks/_libs/util.mjs" ++
          "] || \x7b\x7d;\n\x7d)();\n" := by
  let route : Route ⟨"chunks/_routes/home.mjs", by decide⟩ ⟨"chunks/_libs/util.mjs", by decide⟩ :=
    ⟨["chunks".toList], ["_routes".toList], ["_libs".toList, "util.mjs".toList], by decide,
      by decide⟩
  obtain ⟨m, hm, hreferences, hcode⟩ := (@registryKey_agrees "helper" "h" "l" {} _ _
    (by decide +kernel) (by decide +kernel) (by decide +kernel) (by decide) (by decide)
    (by decide)).2.2.1 route .names
  have htext : ReferenceForm.names.text "helper" "h" route.specifier =
      "import \x7b helper as h \x7d from '../_libs/util.mjs';" := by decide +kernel
  rw [htext] at hm
  refine ⟨m, hm, hreferences, hcode.trans ?_⟩
  decide +kernel

end Modules

end EdgeBundle.LinkedModule
