import EdgeBundle.Proofs.Module.Attributes
import EdgeBundle.Proofs.Module.ReadBack

/-!
# Spellings of a binding

A member of another module can be imported by its name, exported again by its name, and, if it is
the default, imported as the default. Each spelling becomes other code. The code is read back as a
declaration or an assignment with an expression, and the values of the expressions are compared.

## Main definitions

* `LinkedModule.Source.Denotes`: the object that bindings read from, as an expression.
* `Runtime.Lawful`: neither an object without members nor a stand-in has a default.
* `LinkedModule.Declares`, `LinkedModule.Publishes`: what becomes of a module of one statement.

## Main statements

* `LinkedModule.Source.Denotes.value_eq_iff`: when a member is the named export.
* `LinkedModule.ofSource_spellings`: when the spellings of a binding have the same value.
-/

namespace EdgeBundle

open Lexer Expression

/-! ## Objects that bindings read from -/

namespace LinkedModule.Source

/-- The expression for the namespace. -/
inductive Denotes : Source → Expression → Prop
  | registry (key : String) : Denotes (.registry (quoted key))
      (.orElse (.member (.name "__MODS__") key) .emptyObject)
  | polyfill {text : String} {e : Expression} (h : SpellsOperand text e)
      (htext : text ∈ Specifier.polyfills.map Prod.snd) : Denotes (.polyfill text) e
  | empty : Denotes .empty .emptyObject

/-- The expression for the default export of a namespace. -/
def defaultExpression (object : Expression) : Source → Expression
  | registry _ => .member object "default"
  | polyfill _ | empty => object

/-- The expression for a named export of a namespace. -/
def memberExpression (object : Expression) (k : String) (source : Source) : Expression :=
  if k = "default" then source.defaultExpression object
  else
    match source with
    | registry _ | polyfill _ => .member object k
    | empty => .name "undefined"

section Texts

variable {source : Source} {object : Expression} {k : String}

theorem memberExpression_default (hk : k = "default") :
    source.memberExpression object k = source.defaultExpression object :=
  if_pos hk

/-- The registry read under a key, with a fallback. -/
theorem spells_namespaceRead (key : String) : SpellsFor readChoice? (namespaceRead (quoted key))
    (.orElse (.member (.name "__MODS__") key) .emptyObject) := by
  have hname : IsToken .ident "__MODS__" := by decide +kernel
  have htext : namespaceRead (quoted key) =
      "__MODS__" ++ ("[" ++ quoted key ++ "]") ++ (" || " ++ "\x7b\x7d") := by
    apply String.toList_injective
    simp [namespaceRead, registryRead]
  rw [htext]
  exact ((SpellsOperand.name hname).entry key).orElse .emptyObject

theorem Denotes.spells_object (h : source.Denotes object) : Spells source.object object := by
  cases h with
  | registry key =>
    rw [object_registry]
    exact spells_of_choice (spells_namespaceRead key)
  | polyfill h => exact h.spells
  | empty => exact SpellsOperand.emptyObject.spells

/-- A member of the registry read under a key. -/
theorem spells_member_registry (hk : IsToken .ident k) (key : String) :
    Spells ("(" ++ namespaceRead (quoted key) ++ ")." ++ k)
      (.member (.orElse (.member (.name "__MODS__") key) .emptyObject) k) := by
  have htext : "(" ++ namespaceRead (quoted key) ++ ")." ++ k =
      "(" ++ namespaceRead (quoted key) ++ ")" ++ ("." ++ k) := by
    apply String.toList_injective
    simp
  rw [htext]
  exact spells_member (spells_namespaceRead key) hk

theorem Denotes.spells_defaultValue (h : source.Denotes object) :
    Spells source.defaultValue (source.defaultExpression object) := by
  cases h with
  | registry key =>
    have hdefault : IsToken .ident "default" := by decide +kernel
    have htext : (Source.registry (quoted key)).defaultValue =
        "(" ++ namespaceRead (quoted key) ++ ")." ++ "default" := by
      rw [defaultValue_registry]
      apply String.toList_injective
      simp
    rw [htext]
    exact spells_member_registry hdefault key
  | polyfill h => exact h.spells
  | empty => exact SpellsOperand.emptyObject.spells

theorem Denotes.spells_member (h : source.Denotes object) (hk : IsToken .ident k) :
    Spells (source.member k) (source.memberExpression object k) := by
  unfold memberExpression
  split
  next hdefault =>
    have hmember : source.member k = source.defaultValue := by
      cases source <;> exact if_pos hdefault
    rw [hmember]
    exact h.spells_defaultValue
  next hdefault =>
    cases h with
    | registry key =>
      rw [member_registry]
      exact spells_member_registry hk key
    | polyfill h =>
      rw [Source.member, if_neg hdefault, String.append_assoc]
      exact (h.member hk).spells
    | empty =>
      have hundefined : IsToken .ident "undefined" := by decide +kernel
      rw [Source.member, if_neg hdefault]
      exact (SpellsOperand.name hundefined).spells

end Texts

end LinkedModule.Source

/-! ## Values of bindings -/

namespace Runtime

variable {Value : Type}

/-- The value is there and has no default. -/
structure LacksDefault (rt : Runtime Value) (v : Value) : Prop where
  /-- It is there. -/
  ne_undefined : v ≠ rt.undefined
  /-- Its default is missing. -/
  get_default : rt.get v "default" = rt.undefined

/-- Neither an object without members nor a stand-in for a builtin has a default. -/
structure Lawful (rt : Runtime Value) : Prop where
  /-- An object without members has none. -/
  emptyObject : rt.LacksDefault rt.emptyObject
  /-- No stand-in has one. -/
  standIn : ∀ p ∈ Specifier.polyfills, ∀ e ∈ ofText? p.2, rt.LacksDefault (e.value rt)

/-- The bundle before a module has run. Names stand for themselves, and nothing is registered. -/
def unregistered : Runtime String where
  name n := n
  emptyObject := "\x7b\x7d"
  get v k :=
    if (v, k) ∈ [("node_fs", "promises"), ("node_path", "join")] then v ++ "." ++ k else "undefined"
  isTruthy v := v != "undefined"

end Runtime

namespace LinkedModule.Source

section Values

variable {Value : Type} {rt : Runtime Value} {source : Source} {object : Expression} {k : String}

/-- What does not read from the registry has no default. -/
theorem Denotes.lacksDefault (h : source.Denotes object) (hrt : rt.Lawful)
    (hsource : ∀ key, source ≠ .registry key) : rt.LacksDefault (object.value rt) := by
  cases h with
  | registry key => exact absurd rfl (hsource _)
  | polyfill h htext =>
    obtain ⟨p, hp, rfl⟩ := List.mem_map.mp htext
    -- A text that starts a hashbang line has other tokens at the start of a source.
    have hheads : ∀ p ∈ Specifier.polyfills, p.2.toList.head? ≠ some '#' := by decide
    exact hrt.standIn p hp _ (ofText?_of_spells h.spells (hheads p hp))
  | empty => exact hrt.emptyObject

/-- A member and the named export have the same value, but for the default of what does not read
from the registry, and for what the prototype of objects lends to a missing builtin. -/
theorem Denotes.value_eq_iff (h : source.Denotes object) (hrt : rt.Lawful) :
    (Expression.member object k).value rt = (source.memberExpression object k).value rt ↔
      (k = "default" → ∃ key, source = .registry key) ∧
        (source = .empty → rt.get rt.emptyObject k = rt.undefined) := by
  by_cases hdefault : k = "default"
  · subst hdefault
    -- Off the registry the default export is the object itself. It is there, and its member
    -- `default` is not, so the two values never agree.
    cases hsource : source with
    | registry key => simp [memberExpression, defaultExpression]
    | polyfill text =>
      have hlacks := h.lacksDefault hrt (by simp [hsource])
      simpa [memberExpression, defaultExpression, Expression.value, hlacks.get_default] using
        hlacks.ne_undefined.symm
    | empty =>
      have hlacks := h.lacksDefault hrt (by simp [hsource])
      simpa [memberExpression, defaultExpression, Expression.value, hlacks.get_default] using
        hlacks.ne_undefined.symm
  · cases h with
    | registry key => simp [memberExpression, hdefault]
    | polyfill => simp [memberExpression, hdefault]
    | empty => simp [memberExpression, hdefault, Expression.value, Runtime.undefined]

end Values

end LinkedModule.Source

/-! ## Targets of specifiers -/

namespace LinkedModule

variable {site : Site} {specifier : String} {target : Specifier}

/-- A builtin has the stand-in of the table. -/
theorem polyfill?_of_classify {name : String} {polyfill : Option String}
    (h : site.classify specifier = .ok (.builtin name polyfill)) :
    polyfill = Specifier.polyfill? name := by
  cases hclass : Specifier.classify site.path specifier site.builtinHead with
  | error e =>
    rw [Site.classify, hclass] at h
    cases h
  | ok target =>
    rw [Site.classify, hclass] at h
    cases h
    simp only [Specifier.classify] at hclass
    split at hclass
    · cases hresolve : Specifier.resolve site.path.dir specifier <;>
        rw [hresolve] at hclass <;> cases hclass
    · split at hclass
      · split at hclass <;> cases hclass
        rfl
      · cases hclass

/-- Every stand-in of the table is read as an expression. -/
theorem exists_spellsOperand {p : String × String} (hp : p ∈ Specifier.polyfills) :
    ∃ e, SpellsOperand p.2 e := by
  have hnames : IsToken .ident "node_fs" ∧ IsToken .ident "node_url" ∧ IsToken .ident "node_path" ∧
      IsToken .ident "promises" := by
    decide +kernel
  obtain ⟨hfs, hurl, hpath, hpromises⟩ := hnames
  simp only [Specifier.polyfills, List.mem_cons, List.not_mem_nil, or_false] at hp
  rcases hp with rfl | rfl | rfl | rfl
  · exact ⟨_, .name hfs⟩
  · exact ⟨_, (SpellsOperand.name hfs).member hpromises⟩
  · exact ⟨_, .name hurl⟩
  · exact ⟨_, .name hpath⟩

/-- A target of a specifier is an object of the bundle. -/
theorem exists_denotes (h : site.classify specifier = .ok target) :
    ∃ object, target.source.Denotes object := by
  cases target with
  | relative target => exact ⟨_, .registry target⟩
  | bare target => exact ⟨_, .registry target⟩
  | builtin name polyfill =>
    cases polyfill with
    | none => exact ⟨_, .empty⟩
    | some text =>
      have hmem : (name, text) ∈ Specifier.polyfills := by
        obtain ⟨before, after, htable, -⟩ :=
          List.lookup_eq_some_iff.mp (polyfill?_of_classify h).symm
        simp [htable]
      obtain ⟨e, he⟩ := exists_spellsOperand hmem
      exact ⟨e, .polyfill he (List.mem_map_of_mem hmem)⟩

/-! ## Modules of one statement -/

/-- The source consists of one statement of the form with the specifier, in any layout and with any
quotes. -/
def IsStatement (f : StaticForm) (specifier src : String) : Prop :=
  ∃ head s semicolons, tokenize src = .ok (head ++ s :: semicolons) ∧ f.Heads head ∧
    s.kind = .str ∧ '\\' ∉ s.text.toList.tail.dropLast ∧ Statement.specifierText s = specifier ∧
    ∀ t ∈ semicolons, t.isPunct ";" = true

/-- The module declares a name with an expression, and does nothing else. -/
def Declares (config : Config) (path : RelPath) (src n : String) (e : Expression) : Prop :=
  ∃ effect edit, (ofSource config path src).result = .ok (ofEffects path src.toList [effect]) ∧
    effect.edit = some edit ∧ declaration? edit.replacement = some (n, e)

/-- The module publishes an expression under a name, and nothing else. -/
def Publishes (config : Config) (path : RelPath) (src n : String) (e : Expression) : Prop :=
  ∃ effect, (ofSource config path src).result = .ok (ofEffects path src.toList [effect]) ∧
    assignment? (registration path (Manifest.ofEffects [effect])) =
      some (.member (.name registry) path.text, n, e)

section Modules

variable {config : Config} {path : RelPath} {f : StaticForm} {src k d : String}
  {object : Expression}

/-- A module of one statement is made of the effect of that statement. -/
theorem IsStatement.exists_result (h : IsStatement f specifier src) (config : Config)
    (path : RelPath) :
    ∃ line start stop, ∀ e, (effect (.ofConfig config path) line
        ⟨start, stop, f.form specifier⟩).result = .ok e →
      (ofSource config path src).result = .ok (ofEffects path src.toList [e]) := by
  obtain ⟨head, s, semicolons, htokens, hhead, hs, hescape, rfl, hsemicolons⟩ := h
  obtain ⟨t, head, rfl, -⟩ := hhead.exists_cons
  have hread := hhead.readForm_of_skip hs hescape (f.skip_semicolons s.stop hsemicolons)
  exact ⟨_, _, _, fun e heffect => result_ofSource_of_form htokens (hhead.startsForm hs _) hread
    (isKeyword_takeSemicolon s.stop fun u hu => isKeyword_of_semicolon (hsemicolons u hu)) heffect⟩

/-- An import of a name takes the member of the object. -/
theorem IsStatement.declares_member
    (h : IsStatement (.bindings ⟨none, none, some [⟨k, d⟩]⟩) specifier src)
    (hclass : (Site.ofConfig config path).classify specifier = .ok target)
    (hknown : config.strictBuiltins = true → target.source ≠ .empty)
    (hobject : target.source.Denotes object) (hk : IsToken .ident k) (hd : IsToken .ident d) :
    Declares config path src d (.member object k) := by
  obtain ⟨line, start, stop, hresult⟩ := h.exists_result config path
  have heffect := hresult _ (result_effect_eq_ok_iff.mpr (.importFrom ⟨hclass, hknown⟩))
  exact ⟨_, _, heffect, rfl,
    declaration?_member hk hd hobject.spells_object⟩

/-- A re-export of a name publishes the member of the object. -/
theorem IsStatement.publishes_member (h : IsStatement (.names [⟨k, d⟩]) specifier src)
    (hclass : (Site.ofConfig config path).classify specifier = .ok target)
    (hknown : config.strictBuiltins = true → target.source ≠ .empty)
    (hobject : target.source.Denotes object) (hk : IsToken .ident k) (hd : IsToken .ident d) :
    Publishes config path src d (target.source.memberExpression object k) := by
  obtain ⟨line, start, stop, hresult⟩ := h.exists_result config path
  refine ⟨_, hresult _ (result_effect_eq_ok_iff.mpr (.exportNamesFrom ⟨hclass, hknown⟩)), ?_⟩
  have hmanifest : registration path ⟨[], [(d, target.source.member k)], false⟩ =
      registryAssignment (quoted path.text) (pairText d (target.source.member k)) :=
    registration_eq_assignment _ _ _
  exact (congrArg assignment? hmanifest).trans
    (assignment?_registry hd (hobject.spells_member hk) path.text)

/-- An import of the default takes the default of the object. -/
theorem IsStatement.declares_default
    (h : IsStatement (.bindings ⟨some d, none, none⟩) specifier src)
    (hclass : (Site.ofConfig config path).classify specifier = .ok target)
    (hknown : config.strictBuiltins = true → target.source ≠ .empty)
    (hobject : target.source.Denotes object) (hd : IsToken .ident d) :
    Declares config path src d (target.source.defaultExpression object) := by
  obtain ⟨line, start, stop, hresult⟩ := h.exists_result config path
  have heffect := hresult _ (result_effect_eq_ok_iff.mpr (.importFrom ⟨hclass, hknown⟩))
  exact ⟨_, _, heffect, rfl,
    declaration?_whole hd hobject.spells_defaultValue⟩

/-- A name that is imported and the same name exported again have the same value in every state of
the registry, and so have the default that is exported again and the default import. The imported
default of a builtin has not: its object pattern looks for a member, but the other spellings take
the whole object. Nor has a name that all objects have, if it is imported from a missing builtin. -/
theorem ofSource_spellings {Value : Type} {rt : Runtime Value} {named reexported : String}
    (hrt : rt.Lawful) (hclass : (Site.ofConfig config path).classify specifier = .ok target)
    (hknown : config.strictBuiltins = true → target.source ≠ .empty)
    (hk : IsToken .ident k) (hd : IsToken .ident d)
    (hnamed : IsStatement (.bindings ⟨none, none, some [⟨k, d⟩]⟩) specifier named)
    (hreexported : IsStatement (.names [⟨k, d⟩]) specifier reexported) :
    ∃ x y, Declares config path named d x ∧ Publishes config path reexported d y ∧
      (x.value rt = y.value rt ↔ (k = "default" → target.isBuiltin = false) ∧
        (target.source = .empty → rt.get rt.emptyObject k = rt.undefined)) ∧
      (k = "default" → ∀ n src, IsToken .ident n →
        IsStatement (.bindings ⟨some n, none, none⟩) specifier src →
        ∃ z, Declares config path src n z ∧ y.value rt = z.value rt) := by
  -- The spellings read from one object, so only what they take of it can differ.
  obtain ⟨object, hobject⟩ := exists_denotes hclass
  refine ⟨_, _, hnamed.declares_member hclass hknown hobject hk hd,
    hreexported.publishes_member hclass hknown hobject hk hd, ?_, fun hdefault n src hn hsrc => ?_⟩
  · rw [hobject.value_eq_iff hrt, Specifier.exists_source_eq_registry_iff]
  · refine ⟨_, hsrc.declares_default hclass hknown hobject hn, ?_⟩
    rw [Source.memberExpression_default hdefault]

/-- A function of the stand-in for paths, imported and exported again in other quotes. -/
theorem ofSource_spellings_join : ∃ x y,
    Declares {} ⟨"a.mjs", by decide⟩ "import \x7b join as j \x7d from 'node:path';" "j" x ∧
    Publishes {} ⟨"a.mjs", by decide⟩ "export \x7b join as j, \x7d from \"node:path\"" "j" y ∧
    x.value .unregistered = y.value .unregistered := by
  have hlawful : Runtime.unregistered.Lawful := by
    have hstandIns : ∀ p ∈ Specifier.polyfills, ∀ e ∈ ofText? p.2,
        e.value .unregistered ≠ "undefined" ∧
          Runtime.unregistered.get (e.value .unregistered) "default" = "undefined" := by
      decide +kernel
    refine ⟨⟨by decide, by decide⟩, fun p hp e he => ?_⟩
    obtain ⟨hne, hget⟩ := hstandIns p hp e he
    exact ⟨hne, hget⟩
  have hnamed : IsStatement (.bindings ⟨none, none, some [⟨"join", "j"⟩]⟩) "node:path"
      "import \x7b join as j \x7d from 'node:path';" := by
    have hhead : (StaticForm.bindings ⟨none, none, some [⟨"join", "j"⟩]⟩).Heads (
        ⟨.ident, 0, "import"⟩ :: ((⟨.punct, 7, "\x7b"⟩ ::
          ([⟨.ident, 9, "join"⟩, ⟨.ident, 14, "as"⟩, ⟨.ident, 17, "j"⟩] ++
            [⟨.punct, 19, "\x7d"⟩])) ++
          [⟨.ident, 21, "from"⟩])) :=
      .bindings rfl (.inl (.bindings (.names rfl (.last (.renamed rfl rfl rfl)) rfl))) rfl
    exact ⟨_, ⟨.str, 26, "'node:path'"⟩, [⟨.punct, 37, ";"⟩], by decide +kernel, hhead, rfl,
      by decide, by decide +kernel, by decide⟩
  have hreexported : IsStatement (.names [⟨"join", "j"⟩]) "node:path"
      "export \x7b join as j, \x7d from \"node:path\"" := by
    have hhead : (StaticForm.names [⟨"join", "j"⟩]).Heads (
        ⟨.ident, 0, "export"⟩ :: ⟨.punct, 7, "\x7b"⟩ ::
          (([⟨.ident, 9, "join"⟩, ⟨.ident, 14, "as"⟩, ⟨.ident, 17, "j"⟩] ++
            ⟨.punct, 18, ","⟩ :: []) ++ [⟨.punct, 20, "\x7d"⟩, ⟨.ident, 22, "from"⟩])) :=
      .names rfl rfl (.cons (.renamed rfl rfl rfl) rfl .nil) rfl rfl
    exact ⟨_, ⟨.str, 27, "\"node:path\""⟩, [], by decide +kernel, hhead, rfl,
      by decide, by decide +kernel, by decide⟩
  obtain ⟨x, y, hx, hy, hsame, -⟩ := @ofSource_spellings "node:path" (.builtin "path" "node_path")
    {} ⟨"a.mjs", by decide⟩ "join" "j" _ .unregistered _ _ hlawful (by decide +kernel) (by decide)
    (by decide +kernel) (by decide +kernel) hnamed hreexported
  exact ⟨x, y, hx, hy, hsame.mpr ⟨by decide, by decide⟩⟩

/-- The imported default of a builtin is missing, but the default import is the stand-in. -/
theorem ofSource_default_member :
    (ofSource {} ⟨"a.mjs", by decide⟩
        "import \x7b default as d \x7d from 'node:path';").result.toOption.map LinkedModule.code =
      some (opening ⟨"a.mjs", by decide⟩ ++ "const \x7b default: d \x7d = node_path;\n\x7d)();\n") ∧
    (ofSource {} ⟨"a.mjs", by decide⟩
        "import d from 'node:path';").result.toOption.map LinkedModule.code =
      some (opening ⟨"a.mjs", by decide⟩ ++ "const d = node_path;\n\x7d)();\n") ∧
    (declaration? "const \x7b default: d \x7d = node_path;").map
        (fun found => found.2.value .unregistered) = some "undefined" ∧
    (declaration? "const d = node_path;").map
        (fun found => found.2.value .unregistered) = some "node_path" := by
  refine ⟨?_, ?_, ?_, ?_⟩ <;> decide +kernel

end Modules

end LinkedModule

end EdgeBundle
