import EdgeBundle.Error
import EdgeBundle.Json.Printer
import EdgeBundle.Output.Style

/-!
# Forms of a report

A report is written as JSON over several lines, as JSON on one line, or in a form for reading, where
the keys of objects are sorted and strings stand as they are.
-/

namespace EdgeBundle

/-- Form in which a report is written. -/
inductive OutputFormat where
  /-- JSON over several lines. -/
  | json
  /-- JSON on one line. -/
  | text
  /-- For reading. -/
  | pretty
  deriving DecidableEq, Repr

namespace OutputFormat

/-- Name of a form. -/
def name : OutputFormat → String
  | json => "json"
  | text => "text"
  | pretty => "pretty"

/-- The form with a name, in capital or small letters. -/
def ofName (s : String) : Except Error OutputFormat :=
  match s.toLower with
  | "json" => .ok json
  | "text" => .ok text
  | "pretty" => .ok pretty
  | _ =>
    .error (.invalidArgument s!"invalid output format: '{s}' (expected: json, text, or pretty)")

/-- A text in a style, or as it is where there are no colours. -/
def paintIf (coloured : Bool) (style : Style) (text : String) : String :=
  if coloured then style.paint text else text

/-- Parts of values for reading. Strings and keys stand in quotes, and nothing in them is
escaped. -/
def prettyMarks (coloured : Bool) : Json.Marks where
  null := paintIf coloured .dimmed "null"
  bool := paintIf coloured .yellow
  number := paintIf coloured .cyan
  string s := "\"" ++ paintIf coloured .green s ++ "\""
  key k := "\"" ++ paintIf coloured .boldBlue k ++ "\""

/-- A value in a form; only the form for reading has colours. -/
def render (format : OutputFormat) (coloured : Bool) (value : Json) : String :=
  match format with
  | json => value.indented
  | text => value.compact
  | pretty => value.canonical.layout (prettyMarks coloured) 0

end OutputFormat

end EdgeBundle
