import EdgeBundle.Json
import EdgeBundle.Text.Quoted

/-!
# Written JSON

The compact form of a value on one line, and the indented form with two blanks per level.
-/

namespace EdgeBundle.Json

/-- Two blanks per level. -/
def indentation (level : Nat) : String :=
  String.ofList (List.replicate (2 * level) ' ')

/-- Joins texts with a separator. -/
def joinWith (separator : String) : List String → String
  | [] => ""
  | [item] => item
  | item :: items => items.foldl (fun text next => text ++ separator ++ next) item

mutual

/-- The value on one line without blanks. -/
def compact : Json → String
  | .null => "null"
  | .bool b => if b then "true" else "false"
  | .number n => n.toText
  | .string s => quoted s
  | .array items => "[" ++ joinWith "," (compactItems items) ++ "]"
  | .object members => "\x7b" ++ joinWith "," (compactMembers members) ++ "\x7d"

/-- Items on one line each. -/
def compactItems : List Json → List String
  | [] => []
  | item :: items => item.compact :: compactItems items

/-- Members with quoted keys. -/
def compactMembers : List (String × Json) → List String
  | [] => []
  | (key, value) :: members => (quoted key ++ ":" ++ value.compact) :: compactMembers members

end

/-- Encloses indented entries, one a line, in brackets; no entries leave the brackets empty. -/
def enclose (opening closing : String) (level : Nat) (entries : List String) : String :=
  if entries.isEmpty then opening ++ closing
  else
    let inner := entries.map (indentation (level + 1) ++ ·)
    opening ++ "\n" ++ joinWith ",\n" inner ++ "\n" ++ indentation level ++ closing

/-- How the parts of a value are written on their lines. -/
structure Marks where
  /-- The null value. -/
  null : String
  /-- A truth value, from its name. -/
  bool : String → String
  /-- A number, from its digits. -/
  number : String → String
  /-- A string. -/
  string : String → String
  /-- A key. -/
  key : String → String

/-- Parts in standard form. -/
def Marks.standard : Marks where
  null := "null"
  bool := id
  number := id
  string := quoted
  key := quoted

mutual

/-- The value with every item and member on a line of its own. -/
def layout (marks : Marks) (level : Nat) : Json → String
  | .null => marks.null
  | .bool b => marks.bool (if b then "true" else "false")
  | .number n => marks.number n.toText
  | .string s => marks.string s
  | .array items => enclose "[" "]" level (layoutItems marks (level + 1) items)
  | .object members => enclose "\x7b" "\x7d" level (layoutMembers marks (level + 1) members)

/-- Items at the given level. -/
def layoutItems (marks : Marks) (level : Nat) : List Json → List String
  | [] => []
  | item :: items => item.layout marks level :: layoutItems marks level items

/-- Members at the given level. -/
def layoutMembers (marks : Marks) (level : Nat) : List (String × Json) → List String
  | [] => []
  | (key, value) :: members =>
    (marks.key key ++ ": " ++ value.layout marks level) :: layoutMembers marks level members

end

/-- The value in standard form over several lines. -/
def indented (value : Json) : String :=
  value.layout Marks.standard 0

end EdgeBundle.Json
