import EdgeBundle.Path.Relative

/-!
# Module specifiers

A specifier is relative, names a platform builtin by the configured head, or is bare. Relative
ones are resolved by arithmetic on segments against the directory of the importing module; no
file is looked at.
-/

namespace EdgeBundle

/-- Reason why a relative specifier has no target. -/
inductive ResolveError where
  /-- A `..` segment leaves the root. -/
  | climbsAboveRoot (raw : String)
  /-- No segment is left. -/
  | namesNothing (raw : String)
  deriving DecidableEq, Repr

/-- Wording of a reason. -/
def ResolveError.message : ResolveError → String
  | climbsAboveRoot raw => s!"'{raw}' climbs above the server root"
  | namesNothing raw => s!"'{raw}' does not name a module"

/-- A specifier with what it stands for. -/
inductive Specifier where
  /-- A module of the bundle, by its registry key. -/
  | relative (target : String)
  /-- A platform builtin, with the expression that stands in for it if there is one. -/
  | builtin (name : String) (polyfill : Option String)
  /-- Anything else, itself a registry key. -/
  | bare (raw : String)
  deriving DecidableEq, Repr

namespace Specifier

/-- Builtins that the bundle carries a stand-in for, with its expression. -/
def polyfills : List (String × String) :=
  [("fs", "node_fs"), ("fs/promises", "node_fs.promises"), ("url", "node_url"),
    ("path", "node_path")]

/-- The expression that stands in for a builtin. -/
def polyfill? (name : String) : Option String :=
  polyfills.lookup name

/-- Follows segments from a stack of directories, the innermost first. A `..` pops one; none is
left to pop above the root. -/
def follow (stack : List (List Char)) : List (List Char) → Option (List (List Char))
  | [] => some stack
  | s :: rest =>
    if s = [] ∨ s = ['.'] then follow stack rest
    else if s = ['.', '.'] then
      match stack with
      | [] => none
      | _ :: stack => follow stack rest
    else follow (s :: stack) rest

/-- The stack of a directory, the innermost first. -/
def stackOf (dir : List Char) : List (List Char) :=
  ((segments dir).filter (· != [])).reverse

/-- Resolves a relative specifier against a directory. -/
def resolve (dir raw : String) : Except ResolveError String :=
  match follow (stackOf dir.toList) (segments raw.toList) with
  | none => .error (.climbsAboveRoot raw)
  | some [] => .error (.namesNothing raw)
  | some stack => .ok (String.ofList (joinSegments stack.reverse))

/-- Whether a specifier is written relative to its module. -/
def isRelative (raw : List Char) : Bool :=
  ['.', '/'].isPrefixOf raw || ['.', '.', '/'].isPrefixOf raw

/-- What `raw` stands for in the module `importer`, where builtins start with `builtinHead`. -/
def classify (importer : RelPath) (raw builtinHead : String) : Except ResolveError Specifier :=
  if isRelative raw.toList then
    (resolve importer.dir raw).map relative
  else
    match dropHead? builtinHead.toList raw.toList with
    | some name =>
      if builtinHead.isEmpty then .ok (.bare raw)
      else
        let name := String.ofList name
        .ok (.builtin name (polyfill? name))
    | none => .ok (.bare raw)

/-- Whether a specifier stands for a platform builtin. -/
def isBuiltin : Specifier → Bool
  | builtin .. => true
  | _ => false

end Specifier

end EdgeBundle
