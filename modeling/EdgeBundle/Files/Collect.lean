import EdgeBundle.Files.Access
import EdgeBundle.Logged
import EdgeBundle.Record
import EdgeBundle.Text.Utf8

/-!
# Collecting the input trees

The regular files of a folder, found by a walk that goes into folders and follows links. In every
folder the names come in ascending order, so the order of the records does not depend on the order
in which the system lists them.
-/

namespace EdgeBundle.Collect

variable {m : Type → Type} [Monad m] [MonadFiles m]

/-- Path of a name in a folder. -/
def childPath (folder name : String) : String :=
  String.ofList (NativePath.join folder.toList name.toList)

/-- Something that a walk comes to: the path of a regular file, or a failure. -/
abbrev Item := Except FileError String

/-- What a walk knows on its way. -/
structure Way where
  /-- Where the walk started. -/
  root : String
  /-- Real paths of the folders that the walk is in. -/
  inside : List String

/-- Whether a link leads back to a folder that the walk is in. A failure to tell is reported at the
root. -/
def leadsBack (way : Way) (path : String) : m (Except FileError Bool) := do
  match ← MonadFiles.realPath path with
  | .ok real => return .ok (way.inside.contains real)
  | .error e => return .error (.io way.root e)

/-- What the walk makes of one name in a folder; `enter` walks the folder at a path. -/
def walkEntry (way : Way) (enter : String → m (List Item)) (folder : String)
    (entry : FolderEntry) : m (List Item) := do
  let path := childPath folder entry.name
  match entry.kind with
  | .file => return [.ok path]
  | .folder => enter path
  | .other => return []
  | .link =>
    match ← MonadFiles.kindOf path with
    | .error e => return [.error (.io path e)]
    | .ok .file => return [.ok path]
    | .ok .folder =>
      -- only a link can lead back, so plain folders are entered without a look
      match ← leadsBack way path with
      | .error e => return [.error e]
      | .ok true => return [.error (.io path .directoryLoop)]
      | .ok false => enter path
    | .ok _ => return []

/-- Entries in ascending order of their names. -/
def sortEntries (entries : List FolderEntry) : List FolderEntry :=
  entries.mergeSort fun a b => a.name ≤ b.name

/-- Walks a folder, at most `depth` folders deep. -/
def walk (depth : Nat) (way : Way) (folder : String) : m (List Item) :=
  match depth with
  | 0 => return [.error (.io folder .nameTooLong)]
  | depth + 1 => do
    match ← MonadFiles.listFolder folder with
    | .error e => return [.error (.io folder e)]
    | .ok entries =>
      match ← MonadFiles.realPath folder with
      | .error e => return [.error (.io way.root e)]
      | .ok real =>
        let inner := { way with inside := real :: way.inside }
        let found ← (sortEntries entries).mapM (walkEntry inner (walk depth inner) folder)
        return found.flatten

/-- Walks the folder that a tree starts with. -/
def walkTree (root : String) : m (List Item) := do
  walk (← MonadFiles.depthLimit) ⟨root, []⟩ root

/-- The path under which a file of a tree is known. -/
def recordPath (root : String) (origin : Origin) (file : String) : Except FileError RelPath := do
  let path ← RelPath.relativeTo root file
  match origin with
  | .serverTree => return path
  | .publicTree => path.withHead RelPath.publicHead

/-- The text of a file, with a warning where its bytes are no UTF-8. -/
def textOf (path : RelPath) (bytes : List UInt8) : Logged ε String :=
  match Utf8.decode? bytes with
  | some text => return text
  | none => do
    Logged.warn (.lossyText path.text)
    return Utf8.decodeLossy bytes

/-- Reads a file of a tree. -/
def readRecord (root : String) (origin : Origin) (file : String) : LoggedT FileError m Record := do
  let path ← LoggedT.ofLogged (Logged.ofExcept (recordPath root origin file))
  let bytes ← LoggedT.ofResult do
    return (← MonadFiles.readBytes file).mapError (FileError.io file)
  let content ← LoggedT.ofLogged (textOf path bytes)
  return ⟨path, content, origin⟩

/-- The record of what a walk came to. -/
def readItem (root : String) (origin : Origin) : Item → LoggedT FileError m Record
  | .ok file => readRecord root origin file
  | .error e => LoggedT.ofLogged (Logged.ofExcept (.error e))

/-- Fails unless a tree starts with a folder. -/
def checkRoot (root : String) : LoggedT FileError m Unit :=
  LoggedT.ofResult do
    if ← MonadFiles.isFolder root then return .ok () else return .error (.notADirectory root)

/-- The records of one tree, up to the first failure. -/
def readTree (root : String) (origin : Origin) : LoggedT FileError m (List Record) := do
  let items ← LoggedT.ofResult (do return .ok (← walkTree root))
  items.mapM (readItem root origin)

end EdgeBundle.Collect

namespace EdgeBundle

variable {m : Type → Type} [Monad m] [MonadFiles m]

/-- All records and failures of one tree. -/
def collectTree (root : String) (origin : Origin) :
    m (Except FileError (List (Logged FileError Record))) := do
  match (← (Collect.checkRoot root).run).result with
  | .error e => return .error e
  | .ok () =>
    let items ← Collect.walkTree root
    return .ok (← items.mapM fun item => (Collect.readItem root origin item).run)

/-- The records of the server tree and after them those of the public tree. Both trees must be
there; the first failure ends the collection. -/
def collectInputs (serverDir publicDir : String) : LoggedT FileError m (List Record) := do
  Collect.checkRoot serverDir
  Collect.checkRoot publicDir
  let server ← Collect.readTree serverDir .serverTree
  let assets ← Collect.readTree publicDir .publicTree
  return server ++ assets

end EdgeBundle
