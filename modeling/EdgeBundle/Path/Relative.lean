import EdgeBundle.OsError
import EdgeBundle.Text.Search
import EdgeBundle.Text.Segments

/-!
# Relative paths

The one spelling under which a collected file is known: relative, with forward slashes, and without
empty, `.` or `..` segments. It is both the registry key of a module and the key of an embedded
file, so two spellings of one file compare equal.
-/

namespace EdgeBundle

/-- Failure of an operation on collected or embedded files. -/
inductive FileError where
  /-- Reading a file or walking a directory failed. -/
  | io (path : String) (reason : OsError)
  /-- An input root is missing or no directory. -/
  | notADirectory (path : String)
  /-- A path is empty or lies outside its root. -/
  | invalidPath (path : String)
  /-- A path is absolute. -/
  | pathNotRelative (path : String)
  /-- A path has an empty, `.` or `..` segment. -/
  | invalidComponent (path : String)
  /-- No embedded file answers a request. -/
  | notFound (requested normalized : String)
  deriving DecidableEq, Repr

namespace FileError

/-- Wording of an error. -/
def message : FileError → String
  | io path reason => s!"I/O error at {path}: {reason.message}"
  | notADirectory path => s!"Not a directory: {path}"
  | invalidPath path => s!"Invalid path: {path}"
  | pathNotRelative path => s!"Path must be relative: {path}"
  | invalidComponent path => s!"Path contains invalid components: {path}"
  | notFound requested normalized =>
    s!"File not found in VFS: {requested} (normalized: {normalized})"

/-- Whether no embedded file answered a request. -/
def isNotFound : FileError → Bool
  | notFound .. => true
  | _ => false

/-- Whether a path was rejected. -/
def isInvalidPath : FileError → Bool
  | invalidPath _ | pathNotRelative _ | invalidComponent _ => true
  | _ => false

end FileError

namespace RelPath

/-- Whether a text starts with an ASCII letter and a colon. -/
def hasDrive : List Char → Bool
  | c :: ':' :: _ => c.isAlpha
  | _ => false

/-- Whether a segment names something in its directory. -/
def isOrdinary (segment : List Char) : Bool :=
  !(segment == [] || segment == ['.'] || segment == ['.', '.'])

/-- The form of a relative path: no backslash, no drive, and only ordinary segments. -/
def Canonical (cs : List Char) : Prop :=
  '\\' ∉ cs ∧ hasDrive cs = false ∧ ∀ s ∈ segments cs, isOrdinary s = true

instance (cs : List Char) : Decidable (Canonical cs) :=
  inferInstanceAs (Decidable (_ ∧ _ ∧ _))

end RelPath

/-- A relative path in canonical form. -/
structure RelPath where
  /-- The path as text. -/
  text : String
  /-- The text is in canonical form. -/
  canonical : RelPath.Canonical text.toList

namespace RelPath

/-- Paths with the same text are the same. -/
@[ext]
theorem ext {p q : RelPath} (h : p.text = q.text) : p = q := by
  cases p
  cases q
  simp_all

instance : DecidableEq RelPath := fun p q =>
  if h : p.text = q.text then
    isTrue (by cases p; cases q; simp_all)
  else isFalse (fun e => h (e ▸ rfl))

instance : Repr RelPath := ⟨fun p n => reprPrec p.text n⟩

instance : Inhabited RelPath := ⟨⟨"a", by decide⟩⟩

/-- The characters of the path. -/
def chars (p : RelPath) : List Char :=
  p.text.toList

/-- Forward slashes for backslashes, and one leading `./` dropped. -/
def normalize (raw : List Char) : List Char :=
  let slashed := raw.map fun c => if c = '\\' then '/' else c
  (dropHead? ['.', '/'] slashed).getD slashed

/-- Reads a path, with slashes of either kind and an optional leading `./`. -/
def ofText (raw : String) : Except FileError RelPath :=
  let cs := normalize raw.toList
  if cs = [] then .error (.invalidPath raw)
  else if cs.head? = some '/' ∨ hasDrive cs then .error (.pathNotRelative (String.ofList cs))
  else if h : Canonical cs then .ok ⟨String.ofList cs, by simpa using h⟩
  else .error (.invalidComponent (String.ofList cs))

/-- The path with `head` written before it. -/
def withHead (p : RelPath) (head : String) : Except FileError RelPath :=
  ofText (head ++ p.text)

/-- Last segment. -/
def fileName (p : RelPath) : String :=
  String.ofList (lastSegment p.chars)

/-- Directory part, empty for a file at the top. -/
def dir (p : RelPath) : String :=
  String.ofList (beforeLastSegment p.chars)

/-- Extension of a file name with its point. A name that only starts with a point has none. -/
def extensionOf? (name : List Char) : Option (List Char) :=
  match name.reverse.span (· != '.') with
  | (_, []) => none
  | (letters, _ :: stem) => if stem.isEmpty then none else some ('.' :: letters.reverse)

/-- Extension of the last segment with its point. -/
def extension? (p : RelPath) : Option String :=
  (extensionOf? (lastSegment p.chars)).map String.ofList

/-- Head of the path of every file of the public tree, which keeps it apart from the server
tree. -/
def publicHead : String := "public/"

/-- Whether the path lies in the public tree. -/
def isPublic (p : RelPath) : Bool :=
  publicHead.toList.isPrefixOf p.chars

end RelPath

end EdgeBundle
