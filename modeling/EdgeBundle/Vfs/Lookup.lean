import EdgeBundle.Vfs

/-!
# Requests for embedded files

The application asks for files by paths of the machine it was built for. A request is brought into
a plain form and matched in three stages: against a whole path, against a path that ends it (or
that it ends, or that it contains), and against a file name alone.
-/

namespace EdgeBundle.Vfs

/-- Stage at which a request was matched. -/
inductive Stage where
  /-- The path is the request. -/
  | exact
  /-- One ends the other at a slash, or the request contains a long path. -/
  | suffix
  /-- The file names agree. -/
  | basename
  deriving DecidableEq, Repr

/-- A matched request. -/
structure Hit where
  /-- Path of the file. -/
  key : RelPath
  /-- Its content. -/
  content : String
  /-- Stage of the match. -/
  stage : Stage
  deriving DecidableEq, Repr

/-- A path of at most this many bytes is not looked for inside a request. -/
def minContainedLength : Nat := 10

/-- What follows an ASCII letter and a colon at the start, or else the whole text. -/
def dropDrive (cs : List Char) : List Char :=
  if RelPath.hasDrive cs then cs.drop 2 else cs

/-- Plain form of a request: forward slashes, no `file://`, no drive, and nothing up to the last
step out of a build directory. -/
def normalizeRequest (request : List Char) : List Char :=
  let slashed := request.map fun c => if c = '\\' then '/' else c
  let withoutScheme := (dropHead? "file://".toList slashed).getD slashed
  let path := dropDrive withoutScheme
  (afterLast? "/dist/../".toList path).getD path

/-- Whether `text` ends with `ending` at the start of a segment. -/
def endsWithSegments (text ending : List Char) : Bool :=
  ending != [] && ending.isSuffixOf text &&
    (let before := text.take (text.length - ending.length)
     before == [] || ending.head? == some '/' || before.getLast? == some '/')

/-- Whether the path `key` matches the plain request at the second stage. -/
def matchesSuffix (request key : List Char) : Bool :=
  endsWithSegments request key
    || (request.contains '/' && endsWithSegments key request)
    || (minContainedLength < (String.ofList key).utf8ByteSize && containsText key request)

/-- The file that answers a request in plain form. -/
def find? (vfs : Vfs) (request : List Char) : Option Hit :=
  let hit (stage : Stage) (f : RelPath × String) : Hit := ⟨f.1, f.2, stage⟩
  match vfs.files.find? fun f => f.1.chars == request with
  | some f => some (hit .exact f)
  | none =>
    match vfs.files.find? fun f => matchesSuffix request f.1.chars with
    | some f => some (hit .suffix f)
    | none =>
      let name := lastSegment request
      if name = [] then none
      else (vfs.files.find? fun f => lastSegment f.1.chars == name).map (hit .basename)

/-- The file that answers a request. -/
def lookup (vfs : Vfs) (request : String) : Except FileError Hit :=
  let plain := normalizeRequest request.toList
  match vfs.find? plain with
  | some hit => .ok hit
  | none => .error (.notFound request (String.ofList plain))

/-- Whether some file answers a request. -/
def answers (vfs : Vfs) (request : String) : Bool :=
  (vfs.lookup request).toOption.isSome

/-- Content of the file that answers a request. -/
def read (vfs : Vfs) (request : String) : Except FileError String :=
  (vfs.lookup request).map Hit.content

end EdgeBundle.Vfs
