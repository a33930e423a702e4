import EdgeBundle.Bundle.Report
import EdgeBundle.Config.Document
import EdgeBundle.Digest.Blake3
import EdgeBundle.Files.Collect
import EdgeBundle.Files.Write
import EdgeBundle.Link

/-!
# Builds

From a configuration to a bundle on disk: collect the input trees, link them, write the bundle.
Nothing is written unless the link succeeds.
-/

namespace EdgeBundle

variable {m : Type → Type} [Monad m] [MonadFiles m]

/-- The configuration in a file. -/
def loadConfig (path : String) : m (Except Error Config) := do
  match ← MonadFiles.readBytes path with
  | .error e => return .error (.io path e)
  | .ok bytes =>
    match Utf8.decode? bytes with
    | none => return .error (.io path .invalidUtf8)
    | some text => return Config.ofDocument text

/-- Collects the input trees of a configuration and links them. The modules are linked each for
itself, and `collect` gathers them. -/
def linkBy (collect : List (Logged Error LinkedModule) → Logged Error (List LinkedModule))
    (config : Config) : LoggedT Error m LinkOutput := do
  LoggedT.ofLogged (Logged.ofExcept config.validate)
  let records ← (collectInputs config.serverDir config.publicDir).mapError Error.ofFile
  LoggedT.ofLogged (LinkOutput.ofRecordsBy collect config records)

/-- Collects the input trees of a configuration and links them, the modules one after the other. -/
def link (config : Config) : LoggedT Error m LinkOutput :=
  linkBy Logged.collect config

/-- What there is to say about a link whose bundle was written to a path. `hash` gives the digest of
bytes. -/
def LinkOutput.report (hash : ByteArray → String) (output : LinkOutput) (path : String) :
    BundleReport where
  output := path
  filesDiscovered := output.filesDiscovered
  modulesBundled := output.modules.length
  staticFiles := output.vfs.size
  droppedClientAssets := output.dropped.length
  patchesApplied := (output.bundle.patches.filter PatchOutcome.isApplied).length
  bytes := output.bundle.text.utf8ByteSize
  digest := hash output.bundle.text.toUTF8

/-- Links the input trees of a configuration and writes the bundle. -/
def buildBy (collect : List (Logged Error LinkedModule) → Logged Error (List LinkedModule))
    (hash : ByteArray → String) (home : Option String) (config : Config) :
    LoggedT Error m BundleReport := do
  let output ← linkBy collect config
  let path ← LoggedT.ofResult (writeAtomic home config.output output.bundle.text)
  return output.report hash path

/-- Links the input trees of a configuration, the modules one after the other, and writes the
bundle. -/
def build (home : Option String) (config : Config) : LoggedT Error m BundleReport :=
  buildBy Logged.collect Blake3.hash home config

end EdgeBundle
