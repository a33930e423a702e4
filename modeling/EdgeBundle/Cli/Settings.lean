import EdgeBundle.Build
import EdgeBundle.Cli.Arguments

/-!
# Effective configuration

What the command line says counts before the configuration file, and the file before the defaults.
The file is the one that is named, or the one in the current folder if there is one.
-/

namespace EdgeBundle.Cli

variable {m : Type → Type} [Monad m] [MonadFiles m]

/-- Why a command failed: what it was doing, and the error. -/
structure Failure where
  /-- What the command was doing, the outermost first. -/
  doing : List String
  /-- The error. -/
  error : Error
  deriving DecidableEq, Repr

/-- Wordings of an error and of what lies behind it. -/
def causes : Error → List String
  | .io path reason => [Error.message (.io path reason), reason.message]
  | e => [e.message]

/-- Everything there is to say about a failure, the outermost first. -/
def Failure.chain (f : Failure) : List String :=
  f.doing ++ causes f.error

/-- Name of the configuration file of a folder. -/
def defaultConfigFile : String := "edgelink.toml"

/-- The configuration file to read, if there is one. -/
def configFile? (options : LinkOptions) (current : String) : m (Option String) := do
  match options.config with
  | some path => return some path
  | none =>
    let path := String.ofList (NativePath.join current.toList defaultConfigFile.toList)
    if ← MonadFiles.isFile path then return some path else return none

/-- The configuration with what the options say. -/
def LinkOptions.apply (options : LinkOptions) (config : Config) : Config :=
  { config with
    serverDir := options.serverDir.getD config.serverDir
    publicDir := options.publicDir.getD config.publicDir
    output := options.output.getD config.output
    entryModule := options.entry.getD config.entryModule
    strictBuiltins := config.strictBuiltins || options.strict
    strictReferences := config.strictReferences || options.strict }

/-- The configuration of a file, or the default one. -/
def baseConfig : Option String → m (Except Failure Config)
  | none => return .ok {}
  | some path => do
    let result ← loadConfig path
    return result.mapError fun e => ⟨[s!"failed to load configuration from {path}"], e⟩

/-- The configuration of a link. -/
def resolveConfig (options : LinkOptions) (current : String) : m (Except Failure Config) := do
  match ← baseConfig (← configFile? options current) with
  | .error e => return .error e
  | .ok base =>
    let config := options.apply base
    return (config.validate.mapError fun e => ⟨["invalid configuration"], e⟩).map fun _ => config

end EdgeBundle.Cli
