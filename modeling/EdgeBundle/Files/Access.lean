import EdgeBundle.OsError
import EdgeBundle.Path.Native

/-!
# Access to files

What a build asks of the file system. A build is written against these operations, so that it runs
on the files of a machine and on a disk that is a value.
-/

namespace EdgeBundle

/-- What stands under a name. -/
inductive EntryKind where
  /-- A regular file. -/
  | file
  /-- A folder. -/
  | folder
  /-- A symbolic link. -/
  | link
  /-- Anything else. -/
  | other
  deriving DecidableEq, Repr

/-- A name in a folder. -/
structure FolderEntry where
  /-- The name. -/
  name : String
  /-- What stands under it; a link is not followed. -/
  kind : EntryKind
  deriving DecidableEq, Repr

/-- Operations on files. Paths are texts as a user writes them, relative to a current folder. -/
class MonadFiles (m : Type → Type) where
  /-- Content of a file. -/
  readBytes : String → m (Except OsError (List UInt8))
  /-- Gives a file a content; a file that does not exist is made. -/
  writeBytes : String → List UInt8 → m (Except OsError Unit)
  /-- Makes a folder in a folder that exists. -/
  createFolder : String → m (Except OsError Unit)
  /-- Moves what stands under the first path to the second one, in place of what stood there. -/
  rename : String → String → m (Except OsError Unit)
  /-- Removes a file or a link. -/
  removeFile : String → m (Except OsError Unit)
  /-- The names in a folder, in any order. -/
  listFolder : String → m (Except OsError (List FolderEntry))
  /-- What stands under a path, or under the path that a link leads to. -/
  kindOf : String → m (Except OsError EntryKind)
  /-- The one path without links and dots to what a path leads to. -/
  realPath : String → m (Except OsError String)
  /-- No folder lies deeper than this. -/
  depthLimit : m Nat

namespace MonadFiles

variable {m : Type → Type} [Monad m] [MonadFiles m]

/-- Whether a path leads to a folder. -/
def isFolder (path : String) : m Bool := do
  match ← kindOf path with
  | .ok .folder => return true
  | _ => return false

/-- Whether a path leads to a regular file. -/
def isFile (path : String) : m Bool := do
  match ← kindOf path with
  | .ok .file => return true
  | _ => return false

end MonadFiles

/-- Where a build runs. -/
structure Environment where
  /-- Home folder of the user. -/
  home : Option String := none
  /-- Path of the current folder. -/
  current : String
  /-- Path of the configuration, where the environment names one. -/
  configFile : Option String := none
  deriving DecidableEq, Repr

end EdgeBundle
