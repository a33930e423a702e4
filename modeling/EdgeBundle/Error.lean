import EdgeBundle.Path.Relative
import EdgeBundle.Specifier
import EdgeBundle.Token.Lexer

/-!
# Build errors

Every condition that ends a build. A build that ends in an error writes no bundle.
-/

namespace EdgeBundle

/-- What is wrong with the syntax of a module. -/
inductive SyntaxProblem where
  /-- A literal or comment is left open. -/
  | unclosed (fault : LexFault)
  /-- Something else was needed in place of the token, or of the end of the source. -/
  | unexpected (needed : String) (found : Option String)
  deriving DecidableEq, Repr

/-- Wording of a problem. -/
def SyntaxProblem.message : SyntaxProblem → String
  | unclosed fault => fault.message
  | unexpected needed (some text) => s!"{needed}, found '{text}'"
  | unexpected needed none => s!"{needed}, found end of input"

/-- Why a reference has no usable target. -/
inductive UnresolvedReason where
  /-- The specifier has no target. -/
  | specifier (error : ResolveError)
  /-- No module of the bundle is the target. -/
  | notLinked
  /-- The target comes too late in the link order. -/
  | linkedLater (target : String)
  deriving DecidableEq, Repr

/-- Wording of a reason. -/
def UnresolvedReason.message : UnresolvedReason → String
  | specifier error => error.message
  | notLinked => "target module is not linked"
  | linkedLater target => s!"target {target} is linked after the referencing module"

/-- What is wrong with a configuration. -/
inductive ConfigProblem where
  /-- The text is no configuration: malformed, or with a key or a type that does not exist. -/
  | malformed (detail : String)
  /-- A required field is empty or blank. -/
  | emptyField (field : String)
  /-- The name of the host global is no identifier. -/
  | notIdentifier (name : String)
  deriving DecidableEq, Repr

/-- Wording of a problem. -/
def ConfigProblem.message : ConfigProblem → String
  | malformed detail => s!"invalid configuration: {detail}"
  | emptyField field => s!"{field} cannot be empty"
  | notIdentifier name => s!"edge_global '{name}' is not an identifier"

/-- What is wrong with a template. -/
inductive TemplateProblem where
  /-- The source is no template. -/
  | malformed (template detail : String)
  /-- The template has no text in the context. -/
  | unrendered (detail : String)
  deriving DecidableEq, Repr

/-- Wording of a problem. -/
def TemplateProblem.message : TemplateProblem → String
  | malformed template detail => s!"Failed to register {template}: {detail}"
  | unrendered detail => s!"Template rendering failed: {detail}"

/-- A text says why a template has no text. -/
instance : Coe String TemplateProblem :=
  ⟨.unrendered⟩

/-- A condition that ends a build. -/
inductive Error where
  /-- Reading an input or writing the bundle failed. -/
  | io (path : String) (reason : OsError)
  /-- A module has a form of import or export that is not supported. -/
  | unsupportedSyntax (module : String) (line : Nat) (problem : SyntaxProblem)
  /-- A reference has no usable target. -/
  | unresolvedReference (module specifier : String) (reason : UnresolvedReason)
  /-- A builtin without stand-in is used where that is not allowed. -/
  | unknownBuiltin (module name : String)
  /-- The configuration cannot be used. -/
  | config (problem : ConfigProblem)
  /-- An argument cannot be used. -/
  | invalidArgument (message : String)
  /-- A value of the domain is not valid. -/
  | validation (field reason : String)
  /-- The anchor of a patch is no pattern. -/
  | pattern (patch detail : String)
  /-- A template cannot be used. -/
  | template (problem : TemplateProblem)
  deriving DecidableEq, Repr

namespace Error

/-- Wording of an error. -/
def message : Error → String
  | io path reason => s!"I/O error at {path}: {reason.message}"
  | unsupportedSyntax module line problem =>
    s!"unsupported module syntax in {module} at line {line}: {problem.message}"
  | unresolvedReference module specifier reason =>
    s!"unresolved reference '{specifier}' in {module}: {reason.message}"
  | unknownBuiltin module name => s!"unknown builtin module '{name}' referenced from {module}"
  | config problem => s!"Configuration error: {problem.message}"
  | invalidArgument text => s!"Invalid argument: {text}"
  | validation field reason => s!"Validation error in {field}: {reason}"
  | pattern patch detail => s!"Validation error in patch {patch}: {detail}"
  | template problem => s!"Template error: {problem.message}"

/-- A failure on files as an error of the build. -/
def ofFile : FileError → Error
  | .io path reason => .io path reason
  | e => .validation "path" e.message

/-- Whether reading or writing failed. -/
def isIo : Error → Bool
  | io .. => true
  | _ => false

/-- Whether a module has unsupported syntax. -/
def isUnsupportedSyntax : Error → Bool
  | unsupportedSyntax .. => true
  | _ => false

/-- Whether a reference has no usable target. -/
def isUnresolvedReference : Error → Bool
  | unresolvedReference .. => true
  | _ => false

/-- Whether a builtin has no stand-in. -/
def isUnknownBuiltin : Error → Bool
  | unknownBuiltin .. => true
  | _ => false

/-- Whether the configuration cannot be used. -/
def isConfig : Error → Bool
  | config _ => true
  | _ => false

/-- Whether a value is not valid. -/
def isValidation : Error → Bool
  | validation .. | pattern .. => true
  | _ => false

/-- Whether a template cannot be used. -/
def isTemplate : Error → Bool
  | template _ => true
  | _ => false

end Error

end EdgeBundle
