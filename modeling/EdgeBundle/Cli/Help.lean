import EdgeBundle.Cli.Arguments
import EdgeBundle.Cli.Settings

/-!
# Texts for the user

What the program says about itself, about arguments that it cannot use and about a run that failed.
-/

namespace EdgeBundle.Cli

/-- What the program does and how it is called. -/
def helpText : String :=
  String.intercalate "\n" [
    "edgelink - link a Nitro server build into one edge-deploy script.",
    "",
    "Usage: edgelink [OPTIONS] <COMMAND>",
    "",
    "Commands:",
    "  build        Link the build output and write the bundle",
    "  inspect      Link the build output without writing anything",
    "  completions  Generate shell completions",
    "  help         Print this message",
    "",
    "Options:",
    "  -v, --verbose          Enable verbose logging (debug level)",
    "      --format <FORMAT>  Output format (json, text, pretty) [default: pretty]",
    "  -h, --help             Print help",
    "  -V, --version          Print version",
    "",
    "Options of build and inspect:",
    "  -c, --config <CONFIG>          Configuration file (default: ./edgelink.toml when present)",
    "      --server-dir <SERVER_DIR>  Root of the compiled server tree",
    "      --public-dir <PUBLIC_DIR>  Root of the public/static tree",
    "  -o, --output <OUTPUT>          Bundle output path",
    "      --entry <ENTRY>            Entry module path, relative to the server tree",
    "      --strict                   Fail on unknown builtins and unsatisfied references",
    ""]

/-- Wording of a problem with the arguments, or the text that they ask for. -/
def ArgumentProblem.message : ArgumentProblem → String
  | displayHelp | nothingGiven => helpText
  | displayVersion => versionText
  | missingSubcommand => "error: a command is needed\n\n" ++ helpText
  | invalidSubcommand name => s!"error: unrecognized subcommand '{name}'\n"
  | unknownArgument argument => s!"error: unexpected argument '{argument}' found\n"
  | invalidValue argument => s!"error: no usable value for '{argument}'\n"
  | argumentConflict argument => s!"error: '{argument}' cannot be used more than once\n"
  | tooManyValues argument => s!"error: '{argument}' takes no value\n"
  | missingRequiredArgument argument => s!"error: '{argument}' is required\n"

/-- Numbered lines, or one line without a number where there is one only. -/
def causeLines : List String → List String
  | [cause] => [s!"    {cause}"]
  | causes => causes.mapIdx fun i cause => s!"    {i}: {cause}"

/-- A failure with its causes, as lines of text. -/
def Failure.message (f : Failure) : String :=
  match f.chain with
  | [] => "Error\n"
  | [outermost] => s!"Error: {outermost}\n"
  | outermost :: causes =>
    String.intercalate "\n" ([s!"Error: {outermost}", "", "Caused by:"] ++ causeLines causes)
      ++ "\n"

end EdgeBundle.Cli
