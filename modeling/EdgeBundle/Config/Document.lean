import EdgeBundle.Config
import EdgeBundle.Toml.Reader

/-!
# Configuration documents

A document sets some fields of a configuration; the others keep their defaults. Only the names of
fields are keys, none of them twice, and the configuration must be usable.
-/

namespace EdgeBundle.Config

/-- Sets the field with a key. -/
def set (c : Config) (key : String) (value : Toml.Value) : Except String Config :=
  match key, value with
  | "server_dir", .string s => .ok { c with serverDir := s }
  | "public_dir", .string s => .ok { c with publicDir := s }
  | "output", .string s => .ok { c with output := s }
  | "entry_module", .string s => .ok { c with entryModule := s }
  | "library_marker", .string s => .ok { c with libraryMarker := s }
  | "route_marker", .string s => .ok { c with routeMarker := s }
  | "client_asset_prefix", .string s => .ok { c with clientAssetPrefix := s }
  | "builtin_prefix", .string s => .ok { c with builtinPrefix := s }
  | "edge_global", .string s => .ok { c with edgeGlobal := s }
  | "main_url", .string s => .ok { c with mainUrl := s }
  | "strict_builtins", .bool b => .ok { c with strictBuiltins := b }
  | "strict_references", .bool b => .ok { c with strictReferences := b }
  | _, _ => .error s!"no field {key} with a value of this type"

/-- The default configuration with the given fields set. -/
def ofSettings (settings : List (String × Toml.Value)) : Except String Config :=
  if (settings.map Prod.fst).Nodup then
    settings.foldlM (fun c (key, value) => c.set key value) {}
  else .error "duplicate key"

/-- The configuration that a document gives. -/
def ofDocument (text : String) : Except Error Config := do
  match Toml.settings text >>= ofSettings with
  | .error detail => throw (.config (.malformed detail))
  | .ok config =>
    config.validate
    return config

end EdgeBundle.Config
