import EdgeBundle.Pattern

/-!
# Replacement texts

The text that takes the place of a match. `$1` and `$name` stand for groups, in braces where a
letter follows; `$$` is a dollar sign. A dollar sign that starts nothing stands for itself.
-/

namespace EdgeBundle

/-- Part of a replacement text. -/
inductive ReplacementPart where
  /-- Text as it is. -/
  | text (cs : List Char)
  /-- What the group with a number matched. -/
  | group (index : Nat)
  /-- What the group with a name matched. -/
  | named (name : String)
  deriving DecidableEq, Repr

/-- Replacement text by its parts. -/
abbrev Replacement := List ReplacementPart

namespace Replacement

/-- Characters of a reference without braces. -/
def isNameChar (c : Char) : Bool :=
  c.isAlphanum || c == '_'

/-- What a reference stands for: a number, which may carry a plus sign, or else a name. A number
beyond 64 bits is a name. -/
def reference (name : List Char) : ReplacementPart :=
  let digits := match name with
    | '+' :: ds => ds
    | ds => ds
  let value := digits.foldl (fun n d => 10 * n + (d.toNat - 48)) 0
  if !digits.isEmpty && digits.all Char.isDigit && value < UInt64.size then .group value
  else .named (String.ofList name)

/-- Reads a replacement text. -/
def ofChars (cs : List Char) : Replacement :=
  match cs with
  | [] => []
  | '$' :: '$' :: rest => .text ['$'] :: ofChars rest
  | '$' :: '{' :: rest =>
    if rest.contains '}' then
      reference (rest.takeWhile (· != '}')) :: ofChars (rest.dropWhile (· != '}')).tail
    else .text ['$'] :: ofChars ('{' :: rest)
  | '$' :: rest =>
    if rest.takeWhile isNameChar = [] then .text ['$'] :: ofChars rest
    else reference (rest.takeWhile isNameChar) :: ofChars (rest.dropWhile isNameChar)
  | c :: rest => .text [c] :: ofChars rest
  termination_by cs.length
  decreasing_by
    all_goals
      simp only [List.length_cons, List.length_tail]
      first
        | omega
        | have h := (List.dropWhile_suffix (l := rest) (· != '}')).length_le; omega
        | have h := (List.dropWhile_suffix (l := rest) isNameChar).length_le; omega

/-- The text that takes the place of a match in `text`, where `names` numbers the named groups. -/
def expand (r : Replacement) (names : List (String × Nat)) (text : List Char) (m : Match) :
    List Char :=
  r.flatMap fun
    | .text cs => cs
    | .group index => m.group text index
    | .named name =>
      match names.lookup name with
      | some index => m.group text index
      | none => []

end Replacement

end EdgeBundle
