import EdgeBundle.Bundle.Assemble
import EdgeBundle.Link.Check
import EdgeBundle.Link.Order

/-!
# Linking

Collected files become one bundle. Server scripts become modules in link order, whose references
are checked; client scripts are dropped; everything else is embedded. An error in any step ends the
link, and then there is no bundle.

Modules do not look at each other, so that they can be linked one after the other or side by side.
-/

namespace EdgeBundle

/-- What a link gives. -/
structure LinkOutput where
  /-- The bundle. -/
  bundle : Bundle
  /-- Modules in link order. -/
  modules : List LinkedModule
  /-- Embedded files. -/
  vfs : Vfs
  /-- Paths of the dropped client scripts. -/
  dropped : List RelPath
  /-- Unsatisfied references. -/
  findings : List Finding
  /-- Number of collected files. -/
  filesDiscovered : Nat

namespace LinkOutput

/-- Links collected files under a configuration that is known to be usable. Each module is linked
for itself, and `collect` runs these computations and gathers their values. -/
def ofRecordsBy (collect : List (Logged Error LinkedModule) → Logged Error (List LinkedModule))
    (config : Config) (records : List Record) : Logged Error LinkOutput := do
  let part (d : Disposition) : List Record := Record.select d config.clientAssetPrefix records
  let vfs := Vfs.ofRecords (part .embeddable)
  let ordered ← orderRecords config (part .executable)
  let modules ← collect (ordered.map fun r => LinkedModule.ofSource config r.path r.content)
  let findings ← LinkedModule.checkReferences modules config.strictReferences
  let bundle ← Bundle.assemble config Patch.defaults modules vfs
  return ⟨bundle, modules, vfs, (part .dropped).map (·.path), findings, records.length⟩

/-- Links collected files under a configuration that is known to be usable, the modules one after
the other. -/
def ofRecords (config : Config) (records : List Record) : Logged Error LinkOutput :=
  ofRecordsBy Logged.collect config records

end LinkOutput

/-- Links collected files. The configuration is checked first. -/
def linkRecordsBy (collect : List (Logged Error LinkedModule) → Logged Error (List LinkedModule))
    (config : Config) (records : List Record) : Logged Error LinkOutput := do
  Logged.ofExcept config.validate
  LinkOutput.ofRecordsBy collect config records

/-- Links collected files, the modules one after the other. -/
def linkRecords (config : Config) (records : List Record) : Logged Error LinkOutput :=
  linkRecordsBy Logged.collect config records

end EdgeBundle
