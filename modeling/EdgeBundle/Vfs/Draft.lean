import EdgeBundle.Vfs

/-!
# Collecting embedded files

Files gathered one by one under paths as written. A path that is not valid does not stop the
gathering; the first such path is reported at the end.
-/

namespace EdgeBundle.Vfs

/-- Files gathered so far and the errors of rejected paths. -/
structure Draft where
  /-- Files so far. -/
  vfs : Vfs
  /-- Errors of rejected paths in order. -/
  rejected : List FileError

namespace Draft

/-- Nothing gathered. -/
def empty : Draft := ⟨Vfs.empty, []⟩

/-- Adds a file under a path as written. -/
def addFile (draft : Draft) (path content : String) : Draft :=
  match RelPath.ofText path with
  | .ok p => { draft with vfs := draft.vfs.insert p content }
  | .error e => { draft with rejected := draft.rejected ++ [e] }

/-- Adds a collected file. -/
def addRecord (draft : Draft) (r : Record) : Draft :=
  { draft with vfs := draft.vfs.insert r.path r.content }

/-- The gathered files, or the error of the first rejected path. -/
def finish (draft : Draft) : Except FileError Vfs :=
  match draft.rejected with
  | [] => .ok draft.vfs
  | e :: _ => .error e

end Draft

end EdgeBundle.Vfs
