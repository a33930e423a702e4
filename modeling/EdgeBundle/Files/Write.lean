import EdgeBundle.Error
import EdgeBundle.Files.Access
import EdgeBundle.Text.Utf8

/-!
# Writing the bundle

The text goes to a temporary file beside the output first, which then takes the place of the output
in one step. So the output never holds a part of a text, and a failure leaves it as it was.
-/

namespace EdgeBundle

variable {m : Type → Type} [Monad m] [MonadFiles m]

/-- The path with the home folder for a leading `~`. -/
def expandTilde (home : Option String) (path : String) : Except Error String :=
  match path.toList with
  | ['~'] => match home with
    | some home => .ok home
    | none => .error (.io path .noHome)
  | '~' :: '/' :: rest => match home with
    | some home => .ok (String.ofList (NativePath.join home.toList rest))
    | none => .error (.io path .noHome)
  | _ => .ok path

/-- A path and those of the folders around it, the innermost first; neither the root nor the current
folder is among them. `fuel` above the length of the path is enough. -/
def foldersUpFrom (fuel : Nat) (path : List Char) : List String :=
  match fuel with
  | 0 => []
  | fuel + 1 =>
    match NativePath.parent? path with
    | none => []
    | some above => String.ofList path :: foldersUpFrom fuel above

/-- Makes a folder and before it the folders around it that do not exist. A folder that exists is no
failure. -/
def createFolders : List String → m (Except OsError Unit)
  | [] => return .ok ()
  | path :: above => do
    match ← MonadFiles.createFolder path with
    | .ok () => return .ok ()
    | .error .notFound =>
      match ← createFolders above with
      | .error e => return .error e
      | .ok () => settle path (← MonadFiles.createFolder path)
    | .error e => settle path (.error e)
where
  /-- Accepts a failure where a folder exists. -/
  settle (path : String) : Except OsError Unit → m (Except OsError Unit)
    | .ok () => return .ok ()
    | .error e => do
      if ← MonadFiles.isFolder path then return .ok () else return .error e

/-- Makes the folder that a path lies in. -/
def createParent (path : String) : m (Except Error Unit) := do
  match NativePath.parent? path.toList with
  | none | some [] => return .ok ()
  | some folder =>
    let result ← createFolders (foldersUpFrom (folder.length + 1) folder)
    return result.mapError (Error.io (String.ofList folder))

/-- Path of the temporary file for an output, if the output has a file name. -/
def temporaryPath? (path : String) : Option String :=
  (NativePath.fileName? path.toList).map fun name =>
    String.ofList (NativePath.withFileName path.toList (name ++ ".tmp".toList))

/-- Moves the content of a file into place through a temporary file, which does not stay behind if a
step fails. -/
def replaceFile (temporary path : String) (content : String) : m (Except Error Unit) := do
  match ← MonadFiles.writeBytes temporary (Utf8.encode content) with
  | .error e =>
    let _ ← MonadFiles.removeFile temporary
    return .error (.io temporary e)
  | .ok () =>
    match ← MonadFiles.rename temporary path with
    | .error e =>
      let _ ← MonadFiles.removeFile temporary
      return .error (.io path e)
    | .ok () => return .ok ()

/-- Writes a text to a path; the folders on the way are made. Gives the path without `~`. -/
def writeAtomic (home : Option String) (path content : String) : m (Except Error String) := do
  match expandTilde home path with
  | .error e => return .error e
  | .ok path =>
    match ← createParent path with
    | .error e => return .error e
    | .ok () =>
      match temporaryPath? path with
      | none => return .error (.invalidArgument s!"output path has no file name: {path}")
      | some temporary =>
        match ← replaceFile temporary path content with
        | .error e => return .error e
        | .ok () => return .ok path

end EdgeBundle
