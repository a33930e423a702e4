import EdgeBundle.Output.ExitCode

/-!
# Command line

The arguments of the program: a command with its switches, and switches of every command, which may
stand before the command or after it. A switch with a value stands in long form (`--output path`,
`--output=path`) or in short form (`-o path`, `-opath`, `-o=path`); flags of one letter may be
joined. After `--` nothing is a switch. Arguments are read from left to right, and the first problem
counts.
-/

namespace EdgeBundle.Cli

/-- Why arguments cannot be used, or what they ask for in place of a run. -/
inductive ArgumentProblem where
  /-- The help text is asked for. -/
  | displayHelp
  /-- The version is asked for. -/
  | displayVersion
  /-- There are no arguments. -/
  | nothingGiven
  /-- There are switches, but no command. -/
  | missingSubcommand
  /-- No command has the name. -/
  | invalidSubcommand (name : String)
  /-- No such switch, or one argument too many. -/
  | unknownArgument (argument : String)
  /-- An argument has no value, or one that it cannot have. -/
  | invalidValue (argument : String)
  /-- A switch is given twice. -/
  | argumentConflict (argument : String)
  /-- A flag has a value. -/
  | tooManyValues (argument : String)
  /-- A required argument is not there. -/
  | missingRequiredArgument (argument : String)
  deriving DecidableEq, Repr

/-- What the program leaves to its caller. Asking for a text is no failure. -/
def ArgumentProblem.exitCode : ArgumentProblem → ExitCode
  | displayHelp | displayVersion => .success
  | _ => .invalidInput

/-- Name and version of the program on a line. -/
def versionText : String := "edgelink 0.1.0\n"

/-- Switches of all commands. -/
inductive Switch where
  /-- Shows the help text. -/
  | help
  /-- Shows the version. -/
  | version
  /-- Says more about a run. -/
  | verbose
  /-- Form of the report. -/
  | format
  /-- Configuration file. -/
  | config
  /-- Server tree. -/
  | serverDir
  /-- Public tree. -/
  | publicDir
  /-- Output path. -/
  | output
  /-- Entry module. -/
  | entry
  /-- Makes doubtful references errors. -/
  | strict
  deriving DecidableEq, Repr

namespace Switch

/-- Long form, without the hyphens. -/
def long : Switch → String
  | help => "help"
  | version => "version"
  | verbose => "verbose"
  | format => "format"
  | config => "config"
  | serverDir => "server-dir"
  | publicDir => "public-dir"
  | output => "output"
  | entry => "entry"
  | strict => "strict"

/-- Letter of the short form. -/
def short? : Switch → Option Char
  | help => some 'h'
  | version => some 'V'
  | verbose => some 'v'
  | config => some 'c'
  | output => some 'o'
  | _ => none

/-- Whether the switch has a value. -/
def takesValue : Switch → Bool
  | format | config | serverDir | publicDir | output | entry => true
  | _ => false

/-- Whether the value is a path, which cannot be empty. -/
def isPath : Switch → Bool
  | config | serverDir | publicDir | output => true
  | _ => false

end Switch

/-- Shells that completions are made for. -/
inductive Shell where
  /-- The Bourne again shell. -/
  | bash
  /-- The shell of that name. -/
  | elvish
  /-- The friendly interactive shell. -/
  | fish
  /-- The shell of Windows. -/
  | powershell
  /-- The Z shell. -/
  | zsh
  deriving DecidableEq, Repr

/-- The shell with a name. -/
def Shell.ofName? : String → Option Shell
  | "bash" => some bash
  | "elvish" => some elvish
  | "fish" => some fish
  | "powershell" => some powershell
  | "zsh" => some zsh
  | _ => none

/-- Where in the command line an argument stands. -/
inductive Scope where
  /-- Before the command. -/
  | top
  /-- After `build` or `inspect`. -/
  | linking
  /-- After `completions`. -/
  | completing
  deriving DecidableEq, Repr

namespace Scope

/-- The switches that are known in a scope. -/
def switches : Scope → List Switch
  | top => [.help, .version, .verbose, .format]
  | linking =>
    [.help, .verbose, .format, .config, .serverDir, .publicDir, .output, .entry, .strict]
  | completing => [.help, .verbose, .format]

/-- The switch with a long form. -/
def long? (scope : Scope) (name : String) : Option Switch :=
  scope.switches.find? fun s => s.long == name

/-- The switch with a letter. -/
def short? (scope : Scope) (letter : Char) : Option Switch :=
  scope.switches.find? fun s => s.short? == some letter

end Scope

/-- Names of the commands. -/
def commandNames : List String := ["build", "inspect", "completions", "help"]

/-- How far the reading of a scope has come. -/
structure Reading where
  /-- Switches with their values; flags have an empty one. -/
  given : List (Switch × String) := []
  /-- Shell of the completions. -/
  shell : Option Shell := none
  /-- A switch whose value has not come yet. -/
  waiting : Option Switch := none
  /-- A switch and its value, not yet among those that are given. -/
  pending : Option (Switch × String) := none
  /-- A name that has come in the place of the shell, not yet looked up. -/
  shellName : Option String := none
  /-- Whether `--` has come. -/
  trailing : Bool := false
  deriving Repr

namespace Reading

/-- Value of a switch. -/
def value? (r : Reading) (s : Switch) : Option String :=
  (r.given.find? fun g => g.1 == s).map Prod.snd

/-- Whether a flag is given. -/
def flag (r : Reading) (s : Switch) : Bool :=
  (r.value? s).isSome

/-- Puts a switch among those that are given. -/
def give (r : Reading) (s : Switch) (value : String) : Except ArgumentProblem Reading :=
  if (r.value? s).isSome then .error (.argumentConflict s.long)
  else if s.isPath && value.isEmpty then .error (.invalidValue s.long)
  else .ok { r with given := r.given ++ [(s, value)] }

/-- Settles what has been read but not looked at. -/
def settle (r : Reading) : Except ArgumentProblem Reading := do
  match r.waiting with
  | some s => throw (.invalidValue s.long)
  | none =>
    let r ← match r.pending with
      | some (s, value) => give { r with pending := none } s value
      | none => pure r
    match r.shellName with
    | none => return r
    | some name =>
      match Shell.ofName? name with
      | some shell => return { r with shell := some shell, shellName := none }
      | none => throw (.invalidValue name)

/-- Takes a flag. -/
def takeFlag (r : Reading) (s : Switch) : Except ArgumentProblem Reading := do
  let r ← r.settle
  match s with
  | .help => throw .displayHelp
  | .version => throw .displayVersion
  | _ => r.give s ""

/-- Takes a switch with a value, which may be attached to it. -/
def takeValue (r : Reading) (s : Switch) (attached : Option String) :
    Except ArgumentProblem Reading := do
  let r ← r.settle
  match attached with
  | some value => r.give s value
  | none => return { r with waiting := some s }

/-- Takes an argument in long form. -/
def takeLong (scope : Scope) (r : Reading) (body : List Char) :
    Except ArgumentProblem Reading :=
  let name := String.ofList (body.takeWhile (· != '='))
  let attached := if body.contains '=' then
      some (String.ofList (body.dropWhile (· != '=')).tail)
    else none
  match scope.long? name with
  | none => .error (.unknownArgument ("--" ++ name))
  | some s =>
    if s.takesValue then r.takeValue s attached
    else if attached.isSome then .error (.tooManyValues s.long)
    else r.takeFlag s

/-- Takes the letters of an argument in short form. -/
def takeLetters (scope : Scope) (r : Reading) : List Char → Except ArgumentProblem Reading
  | [] => .ok r
  | c :: cs =>
    match scope.short? c with
    | none => .error (.unknownArgument (String.ofList ['-', c]))
    | some s =>
      if s.takesValue then
        let attached := match cs with
          | [] => none
          | '=' :: value => some (String.ofList value)
          | value => some (String.ofList value)
        r.takeValue s attached
      else do
        let r ← r.takeFlag s
        takeLetters scope r cs

/-- Takes an argument that is no switch and no command. -/
def takePlain (scope : Scope) (r : Reading) (argument : String) :
    Except ArgumentProblem Reading := do
  match scope with
  | .completing =>
    if r.shell.isSome || r.shellName.isSome then throw (.unknownArgument argument)
    else
      let r ← r.settle
      return { r with shellName := some argument }
  | .linking => throw (.unknownArgument argument)
  | .top =>
    if r.trailing && commandNames.contains argument then throw (.unknownArgument argument)
    else throw (.invalidSubcommand argument)

/-- Takes one argument. -/
def take (scope : Scope) (r : Reading) (argument : String) : Except ArgumentProblem Reading :=
  -- a switch that waits takes the argument as its value
  let plain :=
    match r.waiting with
    | some s => .ok { r with waiting := none, pending := some (s, argument) }
    | none => r.takePlain scope argument
  if r.trailing then r.takePlain scope argument
  else
    match argument.toList with
    | ['-', '-'] => .ok { r with trailing := true }
    | '-' :: '-' :: body => r.takeLong scope body
    | '-' :: c :: cs => r.takeLetters scope (c :: cs)
    | _ => plain

/-- Takes arguments up to a command; gives the command and the arguments after it. -/
def takeAll (scope : Scope) (r : Reading) :
    List String → Except ArgumentProblem (Reading × Option (String × List String))
  | [] => .ok (r, none)
  | argument :: rest =>
    if scope = .top && !r.trailing && r.waiting.isNone && commandNames.contains argument then
      .ok (r, some (argument, rest))
    else
      match r.take scope argument with
      | .ok r => takeAll scope r rest
      | .error e => .error e

/-- Reads all arguments after a command. A value from the environment counts where the arguments do
not name a configuration file. -/
def ofArguments (scope : Scope) (configFile : Option String) (arguments : List String) :
    Except ArgumentProblem Reading := do
  let (r, _) ← takeAll scope {} arguments
  let r ← r.settle
  match scope, configFile with
  | .linking, some path => if r.flag .config then return r else r.give .config path
  | _, _ => return r

end Reading

/-- What a user says about a link. -/
structure LinkOptions where
  /-- Configuration file. -/
  config : Option String := none
  /-- Root of the server tree. -/
  serverDir : Option String := none
  /-- Root of the public tree. -/
  publicDir : Option String := none
  /-- Output path. -/
  output : Option String := none
  /-- Path of the entry module. -/
  entry : Option String := none
  /-- Whether builtins without stand-in and unsatisfied references are errors. -/
  strict : Bool := false
  deriving DecidableEq, Repr

/-- What a user asks for. -/
inductive Command where
  /-- Links and writes the bundle. -/
  | build (options : LinkOptions)
  /-- Links and says what the bundle would hold. -/
  | inspect (options : LinkOptions)
  /-- Writes completions for a shell. -/
  | completions (shell : Shell)
  deriving DecidableEq, Repr

/-- A command and what every command knows. -/
structure Invocation where
  /-- The command. -/
  command : Command
  /-- Whether to say more about the run. -/
  verbose : Bool
  /-- Name of the form of the report. -/
  format : String
  deriving DecidableEq, Repr

/-- The options of a link among the switches that are given. -/
def LinkOptions.ofReading (r : Reading) : LinkOptions where
  config := r.value? .config
  serverDir := r.value? .serverDir
  publicDir := r.value? .publicDir
  output := r.value? .output
  entry := r.value? .entry
  strict := r.flag .strict

/-- What the arguments after `help` ask for. -/
def helpProblem : List String → ArgumentProblem
  | [] => .displayHelp
  | [name] => if commandNames.contains name then .displayHelp else .invalidSubcommand name
  | name :: other :: _ =>
    .invalidSubcommand (if commandNames.contains name then other else name)

/-- The command with a name. -/
def commandOf (name : String) (configFile : Option String) (arguments : List String) :
    Except ArgumentProblem (Command × Reading) := do
  match name with
  | "build" =>
    let r ← Reading.ofArguments .linking configFile arguments
    return (.build (.ofReading r), r)
  | "inspect" =>
    let r ← Reading.ofArguments .linking configFile arguments
    return (.inspect (.ofReading r), r)
  | "completions" =>
    let r ← Reading.ofArguments .completing none arguments
    match r.shell with
    | some shell => return (.completions shell, r)
    | none => throw (.missingRequiredArgument "SHELL")
  | _ => throw (helpProblem arguments)

/-- Reads the arguments of the program. What stands after the command counts before what stands in
front of it. -/
def parseArguments (configFile : Option String) (arguments : List String) :
    Except ArgumentProblem Invocation := do
  let (top, command) ← Reading.takeAll .top {} arguments
  match command with
  | none =>
    let top ← top.settle
    throw (if top.given.isEmpty then .nothingGiven else .missingSubcommand)
  | some (name, rest) =>
    -- problems after the command are found before those in front of it
    let (command, inner) ← commandOf name configFile rest
    let top ← top.settle
    return {
      command
      verbose := top.flag .verbose || inner.flag .verbose
      format := ((inner.value? .format).orElse fun _ => top.value? .format).getD "pretty" }

end EdgeBundle.Cli
