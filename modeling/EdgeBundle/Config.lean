import EdgeBundle.Error
import EdgeBundle.Text.Blank

/-!
# Configuration

Where a build reads and writes, and the path conventions it relies on. Every field has a default
for the usual layout of a server build.
-/

namespace EdgeBundle

/-- Settings of one build. -/
structure Config where
  /-- Root of the compiled server tree. -/
  serverDir : String := ".output/server"
  /-- Root of the tree of public files. -/
  publicDir : String := ".output/public"
  /-- Where the bundle is written; a leading `~` stands for the home directory. -/
  output : String := "dist/deploy.ts"
  /-- Path of the module that starts serving. -/
  entryModule : String := "index.mjs"
  /-- Text in the paths of library modules. -/
  libraryMarker : String := "_libs"
  /-- Text in the paths of route modules. -/
  routeMarker : String := "_routes"
  /-- Head of the paths of client scripts that never run on the server. -/
  clientAssetPrefix : String := "public/assets/"
  /-- Head of the specifiers of platform builtins. -/
  builtinPrefix : String := "node:"
  /-- Host global that tells the edge platform. -/
  edgeGlobal : String := "Bunny"
  /-- Address that the application sees as its main module. -/
  mainUrl : String := "file:///server/index.mjs"
  /-- Whether a builtin without stand-in is an error. -/
  strictBuiltins : Bool := false
  /-- Whether an unsatisfied reference is an error. -/
  strictReferences : Bool := false
  deriving DecidableEq, Repr

namespace Config

/-- Whether a text is an ASCII identifier of a script. -/
def isIdentifier (name : String) : Bool :=
  match name.toList with
  | [] => false
  | c :: cs =>
    let start (c : Char) : Bool := c.isAlpha || c == '_' || c == '$'
    start c && cs.all fun c => start c || c.isDigit

/-- Texts that must not be blank, by the names of their fields. -/
def markers (c : Config) : List (String × String) :=
  [("entry_module", c.entryModule), ("library_marker", c.libraryMarker),
    ("route_marker", c.routeMarker), ("client_asset_prefix", c.clientAssetPrefix),
    ("builtin_prefix", c.builtinPrefix), ("edge_global", c.edgeGlobal)]

/-- Paths that must not be empty, by the names of their fields. -/
def paths (c : Config) : List (String × String) :=
  [("server_dir", c.serverDir), ("public_dir", c.publicDir), ("output", c.output)]

/-- What makes a configuration unusable: first a blank text, then an empty path, then a host global
that is no identifier. -/
def problem? (c : Config) : Option ConfigProblem :=
  match c.markers.find? fun f => f.2.toList.all isWhiteSpace with
  | some (field, _) => some (.emptyField field)
  | none =>
    match c.paths.find? fun f => f.2.isEmpty with
    | some (field, _) => some (.emptyField field)
    | none => if isIdentifier c.edgeGlobal then none else some (.notIdentifier c.edgeGlobal)

/-- Accepts a usable configuration. -/
def validate (c : Config) : Except Error Unit :=
  match c.problem? with
  | some problem => .error (.config problem)
  | none => .ok ()

end Config

end EdgeBundle
