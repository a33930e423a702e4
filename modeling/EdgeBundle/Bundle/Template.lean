import EdgeBundle.Error
import EdgeBundle.Json.Printer

/-!
# Templates

A template is a text with tags. A field between two pairs of braces stands for a value of the
context; with an arrow in front of the name, on a line of its own, it stands for another template.

What reads templates and renders their parts is an engine. It is a parameter here: a registry keeps
the settings and the templates, and asks the engine for the rest. The standard engine knows the two
kinds of tags above and no others.
-/

namespace EdgeBundle

/-- Part of a template. -/
inductive TemplatePart where
  /-- Text as it is. -/
  | text (s : List Char)
  /-- The value of a field. -/
  | value (field : String)
  /-- Another template. -/
  | template (name : String)
  deriving DecidableEq, Repr

/-- A text with tags. -/
abbrev Template := List TemplatePart

/-- Templates by name, and the settings for all of them. -/
structure TemplateRegistry where
  /-- Whether a field that the context does not have is an error. -/
  strict : Bool
  /-- What becomes of the text of a value. -/
  escape : String → String
  /-- Templates, the last one that was registered first. -/
  templates : List (String × Template)

/-- What reads templates and renders their parts. -/
structure TemplateEngine where
  /-- Template of a source. -/
  compile : String → Except String Template
  /-- Text of a part in a context. -/
  renderPart : TemplateRegistry → Json → TemplatePart → Except String String

namespace TemplateRegistry

/-- Registers the template of a source under a name. -/
def register (engine : TemplateEngine) (name source : String) (r : TemplateRegistry) :
    Except String TemplateRegistry := do
  let t ← engine.compile source
  return { r with templates := (name, t) :: r.templates }

/-- Template with the given name. -/
def find? (r : TemplateRegistry) (name : String) : Option Template :=
  r.templates.lookup name

/-- Text of a template in a context. -/
def renderParts (engine : TemplateEngine) (r : TemplateRegistry) (context : Json) (t : Template) :
    Except String String := do
  let texts ← t.mapM (engine.renderPart r context)
  return String.join texts

/-- Text of the template with the given name in a context. -/
def render (engine : TemplateEngine) (r : TemplateRegistry) (name : String) (context : Json) :
    Except String String :=
  match r.find? name with
  | some t => r.renderParts engine context t
  | none => .error s!"no template {name}"

end TemplateRegistry

namespace Template

/-! ## Reading a source -/

/-- Names that are no fields: helpers and literals. -/
def reservedNames : List String :=
  ["if", "unless", "each", "with", "lookup", "raw", "log", "else", "this", "eq", "ne", "gt", "gte",
    "lt", "lte", "and", "or", "not", "len", "true", "false", "null"]

/-- Whether a text can be the name of a field or of a template. -/
def isName : List Char → Bool
  | [] => false
  | c :: cs =>
    (c.isAlpha || c == '_') && cs.all (fun c => c.isAlphanum || c == '_') &&
      !reservedNames.contains (String.ofList (c :: cs))

/-- Puts a character before a template. -/
def consChar (c : Char) : Template → Template
  | .text s :: t => .text (c :: s) :: t
  | t => .text [c] :: t

/-- Where a source is read. -/
inductive Place where
  /-- In text, at the start of a line or not. -/
  | text (atStart : Bool)
  /-- In a tag that starts there, after part of its content. -/
  | tag (atStart : Bool) (content : List Char)

/-- Template of a source. A tag for another template is the only text of its line and takes the line
break with it. All other tags than those for fields and templates are refused. -/
def read : Place → List Char → Except String Template
  | .text _, [] => .ok []
  | .text _, '\\' :: '\x7b' :: '\x7b' :: _ => .error "escaped tag"
  | .text atStart, '\x7b' :: '\x7b' :: rest => read (.tag atStart []) rest
  | .text _, c :: rest => return consChar c (← read (.text (c == '\n')) rest)
  | .tag _ _, [] => .error "tag without end"
  | .tag true ('>' :: ' ' :: name), '\x7d' :: '\x7d' :: '\n' :: rest => do
    if isName name then return .template (String.ofList name) :: (← read (.text true) rest)
    else .error "not the name of a template"
  | .tag _ content, '\x7d' :: '\x7d' :: rest => do
    if isName content then return .value (String.ofList content) :: (← read (.text false) rest)
    else .error "not the name of a field"
  | .tag atStart content, c :: rest => read (.tag atStart (content ++ [c])) rest

/-! ## Values -/

mutual

/-- Text of a field value. -/
def valueText : Json → String
  | .null => ""
  | .bool b => if b then "true" else "false"
  | .number n => n.toText
  | .string s => s
  | .array items => "[" ++ Json.joinWith ", " (valueTexts items) ++ "]"
  | .object _ => "[object]"

/-- Texts of values. -/
def valueTexts : List Json → List String
  | [] => []
  | item :: items => valueText item :: valueTexts items

end

end Template

namespace TemplateEngine

/-- Text of a part in a context, with templates inside each other down to the given depth. -/
def standardPart (r : TemplateRegistry) (context : Json) : Nat → TemplatePart → Except String String
  | _, .text s => .ok (String.ofList s)
  | _, .value field =>
    match context.get? field with
    | some value => .ok (r.escape (Template.valueText value))
    | none => if r.strict then .error s!"missing field {field}" else .ok ""
  | 0, .template name => .error s!"template {name} inside itself"
  | depth + 1, .template name =>
    match r.find? name with
    | some t => do
      let texts ← t.mapM (standardPart r context depth)
      return String.join texts
    | none => .error s!"no template {name}"

/-- The engine for fields and templates. -/
def standard : TemplateEngine where
  compile source := Template.read (.text true) source.toList
  renderPart r context := standardPart r context r.templates.length

end TemplateEngine

end EdgeBundle
