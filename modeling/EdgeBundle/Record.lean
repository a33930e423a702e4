import EdgeBundle.Path.Relative

/-!
# Collected files

A file of one of the two input trees, and what becomes of it: a server script is linked as a
module, a client script in the server tree is dropped, all else is embedded. The path alone
decides.
-/

namespace EdgeBundle

/-- Kind of content, told by the extension. -/
inductive MimeClass where
  /-- Scripts; the only kind that can be linked. -/
  | javaScript
  /-- JSON documents. -/
  | json
  /-- Web pages. -/
  | html
  /-- Style sheets. -/
  | css
  /-- Vector images. -/
  | svg
  /-- Everything else. -/
  | plainText
  deriving DecidableEq, Repr

namespace MimeClass

/-- Kind of the file at a path. -/
def ofPath (p : RelPath) : MimeClass :=
  match p.extension? with
  | some ".js" | some ".mjs" => .javaScript
  | some ".json" => .json
  | some ".html" => .html
  | some ".css" => .css
  | some ".svg" => .svg
  | _ => .plainText

/-- MIME type. -/
def typeName : MimeClass → String
  | javaScript => "application/javascript"
  | json => "application/json"
  | html => "text/html"
  | css => "text/css"
  | svg => "image/svg+xml"
  | plainText => "text/plain"

/-- Whether files of the kind can be linked as modules. -/
def isScript (m : MimeClass) : Bool :=
  m == .javaScript

end MimeClass

/-- Input tree of a file. -/
inductive Origin where
  /-- The compiled server tree. -/
  | serverTree
  /-- The tree of public files. -/
  | publicTree
  deriving DecidableEq, Repr

/-- A collected file. -/
structure Record where
  /-- Path under which the file is known. -/
  path : RelPath
  /-- Text content. -/
  content : String
  /-- Tree that the file came from. -/
  origin : Origin
  deriving DecidableEq, Repr

/-- What becomes of a file. -/
inductive Disposition where
  /-- It is linked as a module. -/
  | executable
  /-- It is embedded. -/
  | embeddable
  /-- It is left out. -/
  | dropped
  deriving DecidableEq, Repr

namespace Record

/-- Kind of content. -/
def mime (r : Record) : MimeClass :=
  .ofPath r.path

/-- Whether the file is a server script outside the public folder. -/
def isExecutable (r : Record) : Bool :=
  r.mime.isScript && r.origin == .serverTree && !r.path.isPublic

/-- Whether the file is a client script that the server tree carries under `assetHead`. -/
def isClientBundle (r : Record) (assetHead : String) : Bool :=
  r.mime.isScript && r.origin == .serverTree && assetHead.toList.isPrefixOf r.path.chars

/-- What becomes of the file when client scripts lie under `assetHead`. -/
def disposition (r : Record) (assetHead : String) : Disposition :=
  if r.isClientBundle assetHead then .dropped
  else if r.isExecutable then .executable
  else .embeddable

/-- The records with the given disposition, in order. -/
def select (d : Disposition) (assetHead : String) (records : List Record) : List Record :=
  records.filter fun r => r.disposition assetHead == d

end Record

end EdgeBundle
