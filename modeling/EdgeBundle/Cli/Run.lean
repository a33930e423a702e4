import EdgeBundle.Cli.Inspect
import EdgeBundle.Cli.Settings
import EdgeBundle.Output.Format

/-!
# Commands

Runs a command and gives the text for the standard output, or the failure. The form of the report is
looked at before anything else is done.
-/

namespace EdgeBundle.Cli

variable {m : Type → Type} [Monad m] [MonadFiles m]

/-- The configuration of a link as a computation with warnings. -/
def effectiveConfig (env : Environment) (options : LinkOptions) : LoggedT Failure m Config :=
  LoggedT.ofResult (resolveConfig options env.current)

/-- Links and writes the bundle. -/
def runBuild (env : Environment) (options : LinkOptions) : LoggedT Failure m BundleReport := do
  let config ← effectiveConfig env options
  (build env.home config).mapError fun e => ⟨[s!"failed to build {config.output}"], e⟩

/-- Links and says what the bundle would hold. -/
def runInspect (env : Environment) (options : LinkOptions) : LoggedT Failure m InspectReport := do
  let config ← effectiveConfig env options
  let output ← (link config).mapError fun e => ⟨["failed to link build output"], e⟩
  return output.inspect config

/-- Words that a shell can complete. -/
def completionWords : String :=
  String.intercalate " " (commandNames ++ Scope.linking.switches.map fun s => "--" ++ s.long)

/-- Text that makes a shell complete the words of the program. -/
def completionScript : Shell → String
  | .bash => s!"complete -W \"{completionWords}\" edgelink\n"
  | .zsh => s!"compdef \"_arguments '*: :({completionWords})'\" edgelink\n"
  | .fish => s!"complete -c edgelink -f -a \"{completionWords}\"\n"
  | .elvish =>
    s!"set edit:completion:arg-completer[edgelink] = \x7b|@_| put {completionWords} \x7d\n"
  | .powershell =>
    let words := completionWords
    String.join ["Register-ArgumentCompleter -Native -CommandName edgelink -ScriptBlock \x7b ",
      "'", words, "'.Split(' ') \x7d\n"]

/-- The text that a command gives in a form. -/
def runCommand (env : Environment) (coloured : Bool) (format : OutputFormat) :
    Command → LoggedT Failure m String
  | .build options => do
    let report ← runBuild env options
    return format.render coloured report.toJson ++ "\n"
  | .inspect options => do
    let report ← runInspect env options
    return format.render coloured report.toJson ++ "\n"
  | .completions shell => return completionScript shell

/-- Runs what the command line asks for. -/
def run (env : Environment) (coloured : Bool) (invocation : Invocation) :
    LoggedT Failure m String := do
  let format ← LoggedT.ofResult do
    return (OutputFormat.ofName invocation.format).mapError fun e => ⟨[], e⟩
  runCommand env coloured format invocation.command

end EdgeBundle.Cli
