import EdgeBundle.Path.Relative

/-!
# Paths of the operating system

A path as the user writes it, its components, and the operations that the linker needs on it.
Repeated slashes and inner `.` segments do not change what a path means, but its text is kept as
written, since error messages show it.
-/

namespace EdgeBundle.NativePath

/-- A significant part of a path. -/
inductive Component where
  /-- The leading slash of an absolute path. -/
  | root
  /-- A leading `.` of a relative path. -/
  | current
  /-- The segment `..`. -/
  | parent
  /-- A name. -/
  | name (text : List Char)
  deriving DecidableEq, Repr

/-- Component of one segment after the first; empty and `.` segments have none. -/
def Component.ofSegment? (s : List Char) : Option Component :=
  if s = [] ∨ s = ['.'] then none
  else if s = ['.', '.'] then some .parent
  else some (.name s)

/-- Components of a path in order. -/
def components (path : List Char) : List Component :=
  match path with
  | [] => []
  | '/' :: _ => .root :: (segments path).filterMap Component.ofSegment?
  | _ =>
    match segments path with
    | ['.'] :: rest => .current :: rest.filterMap Component.ofSegment?
    | all => all.filterMap Component.ofSegment?

/-- Whether a path starts at the root. -/
def isAbsolute (path : List Char) : Bool :=
  path.head? == some '/'

/-- A path taken from a base directory; an absolute one replaces it. -/
def join (base path : List Char) : List Char :=
  if isAbsolute path then path
  else if base = [] ∨ base.getLast? = some '/' then base ++ path
  else base ++ '/' :: path

/-- Last component, if it is a name. -/
def fileName? (path : List Char) : Option (List Char) :=
  match (components path).getLast? with
  | some (.name n) => some n
  | _ => none

/-- Drops slashes, and `.` segments that mean nothing, from the end of a path. -/
def trimEnd (path : List Char) : List Char :=
  go path.reverse
where
  /-- Works on the reversed path. -/
  go : List Char → List Char
    | [] => []
    | ['/'] => ['/']
    | '/' :: cs => go cs
    | '.' :: '/' :: cs => go ('/' :: cs)
    | cs => cs.reverse

/-- The path without its last component, as written; none for the root and the empty path. -/
def parent? (path : List Char) : Option (List Char) :=
  match (components path).getLast? with
  | none | some .root => none
  | some _ =>
    let rest := (trimEnd path).reverse.dropWhile (· != '/')
    some (trimEnd rest.reverse)

/-- The sibling of a path with another last name. -/
def withFileName (path name : List Char) : List Char :=
  match fileName? path with
  | some _ => join ((parent? path).getD []) name
  | none => join path name

end EdgeBundle.NativePath

namespace EdgeBundle.RelPath

/-- The components of `file` below `root`, if it lies there. -/
def below? (root file : List NativePath.Component) : Option (List NativePath.Component) :=
  if root.isPrefixOf file then some (file.drop root.length) else none

/-- The name that a component is. -/
def nameOf? : NativePath.Component → Option (List Char)
  | .name n => some n
  | _ => none

/-- The path of `file` relative to the directory `root`. -/
def relativeTo (root file : String) : Except FileError RelPath :=
  let found := do
    let rest ← below? (NativePath.components root.toList) (NativePath.components file.toList)
    rest.mapM nameOf?
  match found with
  | none => .error (.invalidPath file)
  | some names => ofText (String.ofList (joinSegments names))

end EdgeBundle.RelPath
