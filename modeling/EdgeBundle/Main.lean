import EdgeBundle.Cli.Help
import EdgeBundle.Cli.Run

/-!
# The program

Runs the command line on the files of the machine. Everything that is decided is decided elsewhere;
here operations are handed to the system, and texts and exit codes to the caller.
-/

namespace EdgeBundle.Machine

/-- Number that the system gives to an error, with either sign. -/
def errorNumber? : IO.Error → Option UInt32
  | .alreadyExists _ n _ | .otherError n _ | .resourceBusy n _ | .resourceVanished n _
  | .unsupportedOperation n _ | .hardwareFault n _ | .unsatisfiedConstraints n _
  | .illegalOperation n _ | .protocolError n _ | .timeExpired n _ | .interrupted _ n _
  | .noFileOrDirectory _ n _ | .invalidArgument _ n _ | .permissionDenied _ n _
  | .resourceExhausted _ n _ | .inappropriateType _ n _ | .noSuchThing _ n _ => some n
  | .unexpectedEof | .userError _ => none

/-- The reason behind an error. -/
def reason (e : IO.Error) : OsError :=
  ((errorNumber? e).bind fun n => OsError.ofNumber? n.toInt32.toInt.natAbs).getD
    (.other (toString e))

/-- Does something with a path. -/
def attempt (path : String) (action : IO α) : IO (Except OsError α) :=
  if path.contains '\x00' then return .error .nulInPath
  else try return .ok (← action) catch e => return .error (reason e)

/-- A path as a place in a folder. -/
def place (path : String) : IO.FS.DirEntry := ⟨path, ""⟩

/-- Kind of what stands at a place. -/
def kind : IO.FS.FileType → EntryKind
  | .file => .file
  | .dir => .folder
  | .symlink => .link
  | .other => .other

/-- The files of the machine. -/
instance : MonadFiles IO where
  readBytes path := attempt path do return (← IO.FS.readBinFile path).toList
  writeBytes path bytes := attempt path (IO.FS.writeBinFile path ⟨bytes.toArray⟩)
  createFolder path := attempt path (IO.FS.createDir path)
  rename source target := attempt (source ++ target) (IO.FS.rename source target)
  removeFile path := attempt path (IO.FS.removeFile path)
  listFolder path := attempt path do
    let entries ← (place path).root.readDir
    entries.toList.mapM fun entry => do
      return ⟨entry.fileName, kind (← entry.path.symlinkMetadata).type⟩
  kindOf path := attempt path do return kind (← (place path).root.metadata).type
  realPath path := attempt path do return (← IO.FS.realPath path).toString
  depthLimit := return 4096

/-- Where the program runs. -/
def environment : IO Environment := do
  return {
    home := (← IO.getEnv "HOME").filter fun path => !path.isEmpty
    current := (← IO.currentDir).toString
    configFile := ← IO.getEnv "EDGELINK_CONFIG" }

/-- Runs what the command line asks for, and says how it went. -/
def runInvocation (env : Environment) (invocation : Cli.Invocation) : IO ExitCode := do
  let coloured ← (← IO.getStdout).isTty
  let outcome ← (Cli.run env coloured invocation).run
  for warning in outcome.warnings do
    IO.eprintln s!"warning: {warning.message}"
  match outcome.result with
  | .ok text =>
    IO.print text
    return .success
  | .error failure =>
    IO.eprint failure.message
    return .failure

/-- Shows a problem with the arguments, or the text that they ask for. -/
def showProblem (problem : Cli.ArgumentProblem) : IO ExitCode := do
  if problem.exitCode.isSuccess then IO.print problem.message else IO.eprint problem.message
  return problem.exitCode

/-- Reads the arguments and does what they ask for. -/
def runArguments (arguments : List String) : IO ExitCode := do
  let env ← environment
  match Cli.parseArguments env.configFile arguments with
  | .ok invocation => runInvocation env invocation
  | .error problem => showProblem problem

end EdgeBundle.Machine

/-- The program. -/
def main (arguments : List String) : IO UInt32 := do
  return (← EdgeBundle.Machine.runArguments arguments).value.toUInt32
