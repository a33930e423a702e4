/-!
# Coloured terminal text

A text in a style is enclosed in the escape sequence that starts the style and the one that ends
every style. An ending sequence inside the text does not end the style for the rest of it.
-/

namespace EdgeBundle

/-- Look of a text on a terminal. -/
inductive Style where
  /-- Faint. -/
  | dimmed
  /-- Green. -/
  | green
  /-- Yellow. -/
  | yellow
  /-- Cyan. -/
  | cyan
  /-- Blue and bold. -/
  | boldBlue
  deriving DecidableEq, Repr

namespace Style

/-- Numbers of a style, as terminals know them. -/
def code : Style → String
  | dimmed => "2"
  | green => "32"
  | yellow => "33"
  | cyan => "36"
  | boldBlue => "1;34"

/-- Sequence that starts a style. -/
def opening (style : Style) : String :=
  "\x1b[" ++ style.code ++ "m"

/-- Sequence that ends every style. -/
def closing : String := "\x1b[0m"

/-- Starts a style anew after every sequence that ends it. -/
def reopen (opening : List Char) : List Char → List Char
  | '\x1b' :: '[' :: '0' :: 'm' :: cs => closing.toList ++ opening ++ reopen opening cs
  | c :: cs => c :: reopen opening cs
  | [] => []

/-- A text in a style. -/
def paint (style : Style) (text : String) : String :=
  style.opening ++ String.ofList (reopen style.opening.toList text.toList) ++ closing

end Style

end EdgeBundle
