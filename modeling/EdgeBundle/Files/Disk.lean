import EdgeBundle.Files.Access
import EdgeBundle.Text.Utf8

/-!
# Disks as values

A disk is a list of entries under their places, a place being the list of names on the way from the
root. Paths lead to places the way Linux resolves them: segment by segment, through links, at most
forty of them.
-/

namespace EdgeBundle

/-- Names on the way from the root. -/
abbrev Place := List String

/-- What stands at a place. -/
inductive DiskEntry where
  /-- A file with its content. -/
  | file (bytes : List UInt8)
  /-- A folder. -/
  | folder
  /-- A symbolic link with the path it holds. -/
  | link (target : String)
  deriving DecidableEq, Repr

/-- Kind of an entry. -/
def DiskEntry.kind : DiskEntry → EntryKind
  | .file _ => .file
  | .folder => .folder
  | .link _ => .link

/-- A file system and the current folder in it. -/
structure Disk where
  /-- What stands at the places below the root. -/
  entries : List (Place × DiskEntry)
  /-- The current folder. -/
  current : Place
  deriving DecidableEq, Repr

namespace Disk

/-! ## Places -/

/-- What stands at a place. The root is a folder. -/
def get? (disk : Disk) (place : Place) : Option DiskEntry :=
  if place.isEmpty then some .folder else disk.entries.lookup place

/-- Entries with one more, in place of an entry with the same place. -/
def insertEntry (place : Place) (entry : DiskEntry) :
    List (Place × DiskEntry) → List (Place × DiskEntry)
  | [] => [(place, entry)]
  | other :: rest =>
    if other.1 = place then (place, entry) :: rest else other :: insertEntry place entry rest

/-- The disk with an entry at a place. -/
def set (disk : Disk) (place : Place) (entry : DiskEntry) : Disk :=
  { disk with entries := insertEntry place entry disk.entries }

/-- The disk with nothing at a place. -/
def erase (disk : Disk) (place : Place) : Disk :=
  { disk with entries := disk.entries.filter fun e => e.1 != place }

/-- The name of an entry that stands directly in a folder. -/
def nameIn? (folder place : Place) : Option String :=
  match place.getLast? with
  | some name => if place.dropLast = folder then some name else none
  | none => none

/-- The names in a folder, in the order of the entries. -/
def children (disk : Disk) (folder : Place) : List (String × DiskEntry) :=
  disk.entries.filterMap fun e => (nameIn? folder e.1).map fun name => (name, e.2)

/-- Moves an entry, and all that stands below it, in place of what stood at the new place. -/
def moveEntry (disk : Disk) (source target : Place) : Disk :=
  let moved := (disk.entries.filter fun e => e.1 != target).map fun e =>
    if source.isPrefixOf e.1 then (target ++ e.1.drop source.length, e.2) else e
  { disk with entries := moved }

/-! ## Paths -/

/-- Longest name that the system takes, in bytes. -/
def maxName : Nat := 255

/-- Longest path that the system takes, in bytes. -/
def maxPath : Nat := 4095

/-- Number of links that the system follows on one way. -/
def maxLinks : Nat := 40

/-- Segments of a path. -/
def segmentsOf (path : String) : List String :=
  (segments path.toList).map String.ofList

/-- Whether a path starts at the root. -/
def isAbsolute (path : String) : Bool :=
  NativePath.isAbsolute path.toList

/-- Where a way leads. -/
inductive Found where
  /-- To a place where something stands. -/
  | entry (place : Place)
  /-- To a name that is free in a folder; `slash` tells that slashes follow the name. -/
  | free (folder : Place) (name : String) (slash : Bool)
  deriving DecidableEq, Repr

/-- Follows segments from a folder. A link leads on with `onLink`, which gets the folder of the
link, the path it holds and the segments after it; the link at the very end only where `followLast`
says so. -/
def follow (disk : Disk) (followLast : Bool)
    (onLink : Place → String → List String → Except OsError Found) (here : Place) :
    List String → Except OsError Found
  | [] => .ok (.entry here)
  | segment :: rest =>
    if segment = "" ∨ segment = "." then follow disk followLast onLink here rest
    else if segment = ".." then follow disk followLast onLink here.dropLast rest
    else if maxName < segment.utf8ByteSize then .error .nameTooLong
    else
      let place := here ++ [segment]
      match disk.get? place with
      | none =>
        -- only the last name of a path may be free
        if rest.all String.isEmpty then .ok (.free here segment !rest.isEmpty)
        else .error .notFound
      | some .folder => follow disk followLast onLink place rest
      | some (.file _) => if rest.isEmpty then .ok (.entry place) else .error .notDirectory
      | some (.link target) =>
        if rest.isEmpty && !followLast then .ok (.entry place) else onLink here target rest

/-- Where the way from a folder along segments leads, through at most `links` links. -/
def resolve (disk : Disk) (followLast : Bool) : Nat → Place → List String → Except OsError Found
  | 0, here, path => disk.follow followLast (fun _ _ _ => .error .tooManyLinks) here path
  | links + 1, here, path =>
    let onLink (folder : Place) (target : String) (rest : List String) :=
      let start := if isAbsolute target then [] else folder
      disk.resolve followLast links start (segmentsOf target ++ rest)
    disk.follow followLast onLink here path

/-- The folder where a path starts and its segments. -/
def start (disk : Disk) (path : String) : Except OsError (Place × List String) :=
  if path.toList.contains '\x00' then .error .nulInPath
  else if path.isEmpty then .error .notFound
  else if maxPath < path.utf8ByteSize then .error .nameTooLong
  else .ok (if isAbsolute path then [] else disk.current, segmentsOf path)

/-- Where a path leads. -/
def locate (disk : Disk) (path : String) : Except OsError Found := do
  let (here, way) ← disk.start path
  disk.resolve true maxLinks here way

/-- The place that a path leads to. -/
def find (disk : Disk) (path : String) : Except OsError Place := do
  match ← disk.locate path with
  | .entry place => return place
  | .free .. => throw .notFound

/-- The folder that holds the last segment of a path, that segment, and whether slashes follow it.
A path of slashes alone has no last segment. -/
def findParent (disk : Disk) (path : String) :
    Except OsError (Place × Option String × Bool) := do
  let (here, way) ← disk.start path
  let kept := (way.reverse.dropWhile String.isEmpty).reverse
  match ← disk.resolve true maxLinks here kept.dropLast with
  | .free .. => throw .notFound
  | .entry folder =>
    if disk.get? folder = some .folder then
      return (folder, kept.getLast?, kept.length < way.length)
    else throw .notDirectory

/-- Whether a last segment is a name, so that something can be made or moved under it. -/
def ordinaryName? : Option String → Option String
  | some name => if name = "." ∨ name = ".." then none else some name
  | none => none

/-! ## Operations -/

/-- Content of the file at a path. -/
def readBytes (disk : Disk) (path : String) : Except OsError (List UInt8) := do
  match disk.get? (← disk.find path) with
  | some (.file bytes) => return bytes
  | _ => throw .isDirectory

/-- Gives the file at a path a content. -/
def writeBytes (disk : Disk) (path : String) (bytes : List UInt8) : Except OsError Disk := do
  match ← disk.locate path with
  | .free folder name false => return disk.set (folder ++ [name]) (.file bytes)
  | .free _ _ true => throw .isDirectory
  | .entry place =>
    match disk.get? place with
    | some (.file _) => return disk.set place (.file bytes)
    | _ => throw .isDirectory

/-- The place for a new entry under the last segment of a path. -/
def newPlace (disk : Disk) (path : String) : Except OsError Place := do
  let (folder, last, _) ← disk.findParent path
  match ordinaryName? last with
  | none => throw .alreadyExists
  | some name =>
    let place := folder ++ [name]
    if maxName < name.utf8ByteSize then throw .nameTooLong
    else if (disk.get? place).isSome then throw .alreadyExists
    else return place

/-- Makes a folder. -/
def createFolder (disk : Disk) (path : String) : Except OsError Disk := do
  return disk.set (← disk.newPlace path) .folder

/-- Makes a symbolic link. -/
def createLink (disk : Disk) (path target : String) : Except OsError Disk := do
  return disk.set (← disk.newPlace path) (.link target)

/-- Moves what stands under a path to another path. -/
def rename (disk : Disk) (source target : String) : Except OsError Disk := do
  let (sourceFolder, sourceLast, sourceSlash) ← disk.findParent source
  let (targetFolder, targetLast, targetSlash) ← disk.findParent target
  match ordinaryName? sourceLast, ordinaryName? targetLast with
  | some sourceName, some targetName =>
    let old := sourceFolder ++ [sourceName]
    let new := targetFolder ++ [targetName]
    if maxName < sourceName.utf8ByteSize ∨ maxName < targetName.utf8ByteSize then
      throw .nameTooLong
    else
      match disk.get? old, disk.get? new with
      | none, _ => throw .notFound
      | some .folder, existing =>
        if old = new then return disk
        -- a folder cannot go into itself
        else if old.isPrefixOf new then throw .invalidInput
        else
          match existing with
          | none => return disk.moveEntry old new
          | some .folder =>
            if (disk.children new).isEmpty then return disk.moveEntry old new
            else throw .directoryNotEmpty
          | some _ => throw .notDirectory
      | some _, existing =>
        if sourceSlash || targetSlash then throw .notDirectory
        else if old = new then return disk
        else if existing = some .folder then throw .isDirectory
        else return disk.moveEntry old new
  | _, _ => throw .busy

/-- Removes the file or the link under a path. -/
def removeFile (disk : Disk) (path : String) : Except OsError Disk := do
  let (folder, last, slash) ← disk.findParent path
  match ordinaryName? last with
  | none => throw .isDirectory
  | some name =>
    let place := folder ++ [name]
    match disk.get? place with
    | none => throw .notFound
    | some .folder => throw .isDirectory
    | some _ => if slash then throw .notDirectory else return disk.erase place

/-- The names in the folder at a path. -/
def listFolder (disk : Disk) (path : String) : Except OsError (List FolderEntry) := do
  let place ← disk.find path
  if disk.get? place = some .folder then
    return (disk.children place).map fun (name, entry) => ⟨name, entry.kind⟩
  else throw .notDirectory

/-- Kind of what a path leads to. -/
def kindOf (disk : Disk) (path : String) : Except OsError EntryKind := do
  match disk.get? (← disk.find path) with
  | some entry => return entry.kind
  | none => throw .notFound

/-- The path of a place from the root. -/
def pathOf (place : Place) : String :=
  "/" ++ String.ofList (joinSegments (place.map String.toList))

/-- The path without links and dots to what a path leads to. -/
def realPath (disk : Disk) (path : String) : Except OsError String := do
  return pathOf (← disk.find path)

/-- Number of folders. -/
def folderCount (disk : Disk) : Nat :=
  (disk.entries.filter fun e => e.2 == .folder).length + 1

/-- Keeps the disk that an operation leaves; a failed operation leaves it as it was. -/
def change (operation : Disk → Except OsError Disk) : StateM Disk (Except OsError Unit) :=
  modifyGet fun disk =>
    match operation disk with
    | .ok next => (.ok (), next)
    | .error e => (.error e, disk)

instance : MonadFiles (StateM Disk) where
  readBytes path := return (← get).readBytes path
  writeBytes path bytes := change (·.writeBytes path bytes)
  createFolder path := change (·.createFolder path)
  rename source target := change (·.rename source target)
  removeFile path := change (·.removeFile path)
  listFolder path := return (← get).listFolder path
  kindOf path := return (← get).kindOf path
  realPath path := return (← get).realPath path
  depthLimit := return (← get).folderCount

end Disk

end EdgeBundle
