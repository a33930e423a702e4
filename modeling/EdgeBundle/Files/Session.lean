import EdgeBundle.Files.Disk
import Mathlib.Data.List.Infix

/-!
# Sessions on a disk

A session is a disk together with the disks before it, so that what a computation does on the way
can be seen. Every call may fail, as the fates of the session say: a call that fails does nothing,
except that a content may be written in part.
-/

namespace EdgeBundle

/-- A call to the file system. -/
inductive FileCall where
  /-- The content of a file is read. -/
  | readBytes (path : String)
  /-- A content is written. -/
  | writeBytes (path : String) (bytes : List UInt8)
  /-- A folder is made. -/
  | createFolder (path : String)
  /-- Something is moved. -/
  | rename (source target : String)
  /-- A file or a link is removed. -/
  | removeFile (path : String)
  /-- A folder is listed. -/
  | listFolder (path : String)
  /-- The kind of something is asked for. -/
  | kindOf (path : String)
  /-- The path without links is asked for. -/
  | realPath (path : String)
  deriving DecidableEq, Repr

/-- What becomes of a call. -/
inductive Fate where
  /-- It does what it does on the disk. -/
  | goes
  /-- It does nothing and fails. -/
  | fails (reason : OsError)
  /-- So many bytes of a content are written, then it fails. -/
  | stops (count : Nat) (reason : OsError)
  deriving DecidableEq, Repr

/-- Failure of a call that a fate brings about. -/
def Fate.failure? : Fate → Option OsError
  | goes => none
  | fails reason => some reason
  | stops _ reason => some reason

/-- A disk with its past and the fates of the calls. -/
structure Session where
  /-- The disk as it is now. -/
  disk : Disk
  /-- The disks before, the last one first. -/
  past : List Disk := []
  /-- Number of calls so far. -/
  calls : Nat := 0
  /-- What becomes of the calls, each known by the number of calls before it. -/
  fate : Nat → FileCall → Fate

/-- The disks while a content is written, the last one first: every start of the content stands in
the file for a moment. -/
def Disk.writing (disk : Disk) (path : String) (bytes : List UInt8) : List Disk :=
  bytes.inits.reverse.filterMap fun part => (disk.writeBytes path part).toOption

namespace Session

/-- All disks of a session, the last one first. -/
def states (s : Session) : List Disk :=
  s.disk :: s.past

/-- A session that starts with a disk. -/
def start (disk : Disk) (fate : Nat → FileCall → Fate) : Session where
  disk := disk
  fate := fate

/-- The session after one more call that made new disks, the last one first. -/
def advance (s : Session) : List Disk → Session
  | [] => { s with calls := s.calls + 1 }
  | disk :: before => { s with disk := disk, past := before ++ s.states, calls := s.calls + 1 }

/-- A call that asks the disk something. -/
def ask {α : Type} (call : FileCall) (answer : Disk → Except OsError α) :
    StateM Session (Except OsError α) :=
  modifyGet fun s =>
    match (s.fate s.calls call).failure? with
    | some reason => (.error reason, s.advance [])
    | none => (answer s.disk, s.advance [])

/-- A call that changes the disk in one step. -/
def change (call : FileCall) (operation : Disk → Except OsError Disk) :
    StateM Session (Except OsError Unit) :=
  modifyGet fun s =>
    match (s.fate s.calls call).failure? with
    | some reason => (.error reason, s.advance [])
    | none =>
      match operation s.disk with
      | .ok next => (.ok (), s.advance [next])
      | .error reason => (.error reason, s.advance [])

/-- The call that writes a content. -/
def write (path : String) (bytes : List UInt8) : StateM Session (Except OsError Unit) :=
  modifyGet fun s =>
    match s.disk.writeBytes path bytes, s.fate s.calls (.writeBytes path bytes) with
    | .error reason, _ => (.error reason, s.advance [])
    | .ok _, .fails reason => (.error reason, s.advance [])
    | .ok _, .stops count reason =>
      (.error reason, s.advance (s.disk.writing path (bytes.take count)))
    | .ok _, .goes => (.ok (), s.advance (s.disk.writing path bytes))

instance : MonadFiles (StateM Session) where
  readBytes path := ask (.readBytes path) (·.readBytes path)
  writeBytes := write
  createFolder path := change (.createFolder path) (·.createFolder path)
  rename source target := change (.rename source target) (·.rename source target)
  removeFile path := change (.removeFile path) (·.removeFile path)
  listFolder path := ask (.listFolder path) (·.listFolder path)
  kindOf path := ask (.kindOf path) (·.kindOf path)
  realPath path := ask (.realPath path) (·.realPath path)
  depthLimit := return (← get).disk.folderCount

end Session

end EdgeBundle
