import EdgeBundle.Bundle.Script
import EdgeBundle.Config
import EdgeBundle.Module.Linked
import EdgeBundle.Patch
import EdgeBundle.Vfs.Lookup

/-!
# Assembling the bundle

The code of the modules is joined in link order and patched, and the bundle template is filled in
around it.
-/

namespace EdgeBundle

/-- The text of a bundle and what the patches did. -/
structure Bundle where
  /-- Complete script. -/
  text : String
  /-- What each patch did, in order. -/
  patches : List PatchOutcome
  deriving DecidableEq, Repr

namespace Bundle

/-- Name and version of this program. -/
def generator : String := "edgelink 0.1.0"

/-- The code of modules, one after the other, each on lines of its own. -/
def joinedCode (modules : List LinkedModule) : String :=
  "\n".intercalate (modules.map (·.code))

/-- Values for the fields of the bundle template. -/
def context (config : Config) (moduleCount : Nat) (vfs : Vfs) (code : String) : Json :=
  .object
    [("generator", .string generator), ("module_count", .nat moduleCount),
      ("static_count", .nat vfs.size), ("registry", .string LinkedModule.registry),
      ("vfs", .string vfs.literal), ("min_contained_len", .nat Vfs.minContainedLength),
      ("edge_flag", .string Patch.platformFlag), ("edge_global", .string config.edgeGlobal),
      ("main_url", .string (quoted config.mainUrl)), ("modules", .string code)]

/-- The bundle of modules in link order and embedded files, rendered by an engine. -/
def assembleWith (engine : TemplateEngine) (config : Config) (patches : List Patch)
    (modules : List LinkedModule) (vfs : Vfs) : Logged Error Bundle := do
  let (code, outcomes) ← Patch.applyAll patches (joinedCode modules).toList
  let text ← Logged.ofExcept <|
    Template.renderWith engine "bundle" (context config modules.length vfs (String.ofList code))
  return ⟨text, outcomes⟩

/-- The bundle of modules in link order and embedded files. -/
def assemble (config : Config) (patches : List Patch) (modules : List LinkedModule) (vfs : Vfs) :
    Logged Error Bundle :=
  assembleWith .standard config patches modules vfs

end Bundle

end EdgeBundle
