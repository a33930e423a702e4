import EdgeBundle.Json

/-!
# Build report

Summary of one build.
-/

namespace EdgeBundle

/-- Summary of one build. -/
structure BundleReport where
  /-- Where the bundle was written. -/
  output : String
  /-- Files in both input trees. -/
  filesDiscovered : Nat
  /-- Modules in the bundle. -/
  modulesBundled : Nat
  /-- Embedded files. -/
  staticFiles : Nat
  /-- Client scripts that were left out. -/
  droppedClientAssets : Nat
  /-- Patches that changed the text. -/
  patchesApplied : Nat
  /-- Size of the bundle in bytes. -/
  bytes : Nat
  /-- Digest of the bundle. -/
  digest : String
  deriving DecidableEq, Repr

namespace BundleReport

/-- The report as a JSON object, in the order of its fields. -/
def toJson (r : BundleReport) : Json :=
  .object [("output", .string r.output), ("files_discovered", .nat r.filesDiscovered),
    ("modules_bundled", .nat r.modulesBundled), ("static_files", .nat r.staticFiles),
    ("dropped_client_assets", .nat r.droppedClientAssets),
    ("patches_applied", .nat r.patchesApplied), ("bytes", .nat r.bytes),
    ("digest", .string r.digest)]

/-- A number of bytes in KiB with one decimal; an exact half goes to the even digit. -/
def kibText (bytes : Nat) : String :=
  let tenths := Double.roundDiv (10 * bytes) 1024
  s!"{tenths / 10}.{tenths % 10}"

end BundleReport

end EdgeBundle
