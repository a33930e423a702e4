import EdgeBundle.Config
import EdgeBundle.Logged
import EdgeBundle.Module.Edit
import EdgeBundle.Module.Statement
import EdgeBundle.Text.Quoted

/-!
# Linked modules

Turns a module into a function that runs it inside the bundle. Imports become reads from the
registry of modules or from the stand-ins for builtins; exports are published into the registry
when the function ends. All else of the source stays as it is, and the function keeps the names of
the module to itself.
-/

namespace EdgeBundle

/-- A module ready for the bundle. -/
structure LinkedModule where
  /-- Path, which is also the registry key. -/
  path : RelPath
  /-- Code that runs the module. -/
  code : String
  /-- Names that the module publishes. -/
  exports : List String
  /-- References to other modules, in source order. -/
  references : List Reference
  deriving DecidableEq, Repr

namespace LinkedModule

/-- Name of the registry object in the bundle. -/
def registry : String := "__MODS__"

/-- Name of the local that receives the value of an `export default` expression. -/
def defaultLocal : String := "__DEFAULT_EXPORT__"

/-- Where bindings read from. -/
inductive Source where
  /-- The registry, under a quoted key. -/
  | registry (key : String)
  /-- The stand-in for a builtin. -/
  | polyfill (expression : String)
  /-- Nothing: a builtin without stand-in. -/
  | empty
  deriving DecidableEq, Repr

namespace Source

/-- Expression for the namespace. -/
def object : Source → String
  | registry key => LinkedModule.registry ++ "[" ++ key ++ "] || \x7b\x7d"
  | polyfill expression => expression
  | empty => "\x7b\x7d"

/-- Expression for the default export. -/
def defaultValue : Source → String
  | registry key => "(" ++ LinkedModule.registry ++ "[" ++ key ++ "] || \x7b\x7d).default"
  | polyfill expression => expression
  | empty => "\x7b\x7d"

/-- Expression for a named export. -/
def member (source : Source) (name : String) : String :=
  if name = "default" then source.defaultValue
  else
    match source with
    | registry key => "(" ++ LinkedModule.registry ++ "[" ++ key ++ "] || \x7b\x7d)." ++ name
    | polyfill expression => expression ++ "." ++ name
    | empty => "undefined"

end Source

/-- What one statement contributes to the module. -/
structure Effect where
  /-- Change of the source. -/
  edit : Option Edit := none
  /-- Reference to another module. -/
  reference : Option Reference := none
  /-- Object whose members are all published. -/
  spread : Option String := none
  /-- Published names with their expressions. -/
  entries : List (String × String) := []
  /-- Whether the local for the default export is assigned. -/
  setsDefault : Bool := false
  deriving DecidableEq, Repr

/-- The module in which statements stand, and how it treats builtins. -/
structure Site where
  /-- Path of the module. -/
  path : RelPath
  /-- Head of builtin specifiers. -/
  builtinHead : String
  /-- Whether a builtin without stand-in is an error. -/
  strictBuiltins : Bool

namespace Site

/-- The module at a path under a configuration. -/
def ofConfig (config : Config) (path : RelPath) : Site :=
  ⟨path, config.builtinPrefix, config.strictBuiltins⟩

/-- What a specifier stands for here. -/
def classify (site : Site) (specifier : String) : Except Error Specifier :=
  (Specifier.classify site.path specifier site.builtinHead).mapError fun e =>
    .unresolvedReference site.path.text specifier (.specifier e)

/-- Where a statement on the given line that names the specifier reads from, and the reference
that it makes. -/
def source (site : Site) (specifier : String) (kind : ReferenceKind) (line : Nat) :
    Logged Error (Source × Option Reference) := do
  match ← Logged.ofExcept (site.classify specifier) with
  | .relative target | .bare target =>
    return (.registry (quoted target), some ⟨specifier, target, kind, line⟩)
  | .builtin _ (some expression) => return (.polyfill expression, none)
  | .builtin name none =>
    if site.strictBuiltins then throw (.unknownBuiltin site.path.text name)
    Logged.warn (.noPolyfill site.path.text line name)
    return (.empty, none)

end Site

/-- Entry of an object pattern or object literal; a name that stands for itself is written once. -/
def pairText (name value : String) : String :=
  if name = value then name else name ++ ": " ++ value

/-- Texts with a comma and a blank between any two. -/
def commaList (items : List String) : String :=
  String.intercalate ", " items

/-- Declarations that take the place of an import. -/
def bindingText (clause : ImportClause) (source : Source) : String :=
  let declare (pattern value : String) : String := "const " ++ pattern ++ " = " ++ value ++ ";"
  let whole := clause.defaultName.toList.map fun n => declare n source.defaultValue
  let space := clause.namespaceName.toList.map fun n => declare n source.object
  let named := (clause.names.toList.filter fun l => !l.isEmpty).map fun l =>
    declare ("\x7b " ++ commaList (l.map fun p => pairText p.name p.asName) ++ " \x7d")
      source.object
  String.intercalate " " (whole ++ space ++ named)

/-- What a statement on the given line contributes. A removed statement leaves a semicolon, so that
the lines around it are not joined. -/
def effect (site : Site) (line : Nat) (s : Statement) : Logged Error Effect := do
  let replaced (text : String) : Option Edit := some ⟨s.start, s.stop, text⟩
  match s.form with
  | .bareImport specifier =>
    let target ← Logged.ofExcept (site.classify specifier)
    -- nothing of the builtin is used, so a missing stand-in does not matter
    if target.isBuiltin then return { edit := replaced ";" }
    else
      let (_, reference) ← site.source specifier .atLoad line
      return { edit := replaced ";", reference }
  | .importFrom clause specifier =>
    let (source, reference) ← site.source specifier .atLoad line
    return { edit := replaced (bindingText clause source), reference }
  | .importCall specifier =>
    let target ← Logged.ofExcept (site.classify specifier)
    -- the platform itself answers a call that names a builtin
    if target.isBuiltin then return {}
    else
      match ← site.source specifier .onCall line with
      | (.registry key, reference) =>
        let text := "Promise.resolve(" ++ registry ++ "[" ++ key ++ "])"
        return { edit := replaced text, reference }
      | _ => return {}
  | .computedImport =>
    Logged.warn (.computedImport site.path.text line)
    return {}
  | .exportNames names =>
    return { edit := replaced ";", entries := names.map fun p => (p.asName, p.name) }
  | .exportNamesFrom names specifier =>
    let (source, reference) ← site.source specifier .atLoad line
    return { edit := replaced ";", reference,
             entries := names.map fun p => (p.asName, source.member p.name) }
  | .exportAll (some asName) specifier =>
    let (source, reference) ← site.source specifier .atLoad line
    return { edit := replaced ";", reference, entries := [(asName, source.object)] }
  | .exportAll none specifier =>
    let (source, reference) ← site.source specifier .atLoad line
    return { edit := replaced ";", reference, spread := some source.object }
  -- declarations stay where they are, so that they are hoisted as before
  | .exportDefaultDeclaration name =>
    return { edit := replaced "", entries := [("default", name)] }
  | .exportDefault =>
    return { edit := replaced (defaultLocal ++ " ="), setsDefault := true }
  | .exportDeclaration name =>
    return { edit := replaced "", entries := [(name, name)] }

/-- What a module publishes. -/
structure Manifest where
  /-- Objects whose members are all published, except a default. -/
  spreads : List String
  /-- Names with their expressions. -/
  entries : List (String × String)
  /-- Whether the local for the default export is published. -/
  hasDefault : Bool
  deriving DecidableEq, Repr

namespace Manifest

/-- What the statements together publish. -/
def ofEffects (effects : List Effect) : Manifest :=
  ⟨effects.filterMap Effect.spread, effects.flatMap Effect.entries,
    effects.any Effect.setsDefault⟩

/-- Whether nothing is published. -/
def isEmpty (m : Manifest) : Bool :=
  m.spreads.isEmpty && m.entries.isEmpty && !m.hasDefault

/-- Published names. -/
def names (m : Manifest) : List String :=
  m.entries.map Prod.fst ++ if m.hasDefault then ["default"] else []

/-- Members of the published object. -/
def parts (m : Manifest) : List String :=
  m.spreads.map (fun s => "...((\x7b default: _, ...rest \x7d) => rest)(" ++ s ++ ")")
    ++ m.entries.map (fun e => pairText e.1 e.2)
    ++ if m.hasDefault then ["default: " ++ defaultLocal] else []

end Manifest

/-- Start of the function that runs a module. The path in the leading comment cannot end that
comment. -/
def opening (path : RelPath) : String :=
  let title := String.ofList (replaceText ['*', '/'] ['*', '\\', '/'] path.chars)
  "/* Module: " ++ title ++ " */\n(function() \x7b\n  let " ++ defaultLocal ++ ";\n"

/-- Assignment that publishes what a module exports, if it exports anything. -/
def registration (path : RelPath) (manifest : Manifest) : String :=
  if manifest.isEmpty then ""
  else
    "  " ++ registry ++ "[" ++ quoted path.text ++ "] = \x7b " ++ commaList manifest.parts
      ++ " \x7d;\n"

/-- The function that runs a body and publishes what the module exports. -/
def wrap (path : RelPath) (body : List Char) (manifest : Manifest) : String :=
  -- a comment on the last line must not reach the registration
  let newline := if body.getLast? = some '\n' then "" else "\n"
  opening path ++ String.ofList body ++ newline ++ registration path manifest ++ "\x7d)();\n"

/-- Removes a hashbang line. -/
def hashbangEdits (src : List Char) : List Edit :=
  if ['#', '!'].isPrefixOf src then [⟨0, utf8Width (src.take (Lexer.hashbangLength src)), ""⟩]
  else []

/-- Error for a syntax fault of a module. -/
def syntaxError (path : RelPath) (src : List Char) (fault : SyntaxFault) : Error :=
  let offset := (fault.found.map Token.start).getD (utf8Width src)
  .unsupportedSyntax path.text (lineAt src offset)
    (.unexpected fault.needed (fault.found.map Token.text))

/-- What the statements of a source contribute, in order. Of several errors the first in the source
counts. -/
def effectsOf (config : Config) (path : RelPath) (src : String) :
    Logged Error (List Effect) := do
  let cs := src.toList
  let tokens ← Logged.ofExcept <| (tokenize src).mapError fun e =>
    .unsupportedSyntax path.text (lineAt cs e.offset) (.unclosed e.fault)
  -- every statement of the outline stands before the fault, so its errors come first
  let found := Statement.outline false tokens
  let effects ← found.statements.mapM fun s =>
    effect (.ofConfig config path) (lineAt cs s.start) s
  if let some fault := found.fault then throw (syntaxError path cs fault)
  return effects

/-- Changes of a source whose statements have the effects, in order. -/
def editsOf (src : List Char) (effects : List Effect) : List Edit :=
  hashbangEdits src ++ effects.filterMap Effect.edit

/-- The module at a path whose statements have the effects. -/
def ofEffects (path : RelPath) (src : List Char) (effects : List Effect) : LinkedModule :=
  let manifest := Manifest.ofEffects effects
  ⟨path, wrap path (Edit.apply (editsOf src effects) src) manifest, manifest.names,
    effects.filterMap Effect.reference⟩

/-- Links a source as the module at a path. -/
def ofSource (config : Config) (path : RelPath) (src : String) : Logged Error LinkedModule := do
  return ofEffects path src.toList (← effectsOf config path src)

end LinkedModule

end EdgeBundle
