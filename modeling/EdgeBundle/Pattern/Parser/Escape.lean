import EdgeBundle.Pattern
import EdgeBundle.Pattern.Parser.Flags
import EdgeBundle.Pattern.Unicode
import EdgeBundle.Text.Hex

/-!
# Escapes in patterns

What a backslash starts: characters by number or by letter, classes and conditions. A reader gives
what it has read and the rest of the pattern, or the reason why it fails.
-/

namespace EdgeBundle.Pattern

/-- Something that stands for one character or for a condition. -/
inductive Atom where
  /-- A literal character. -/
  | char (c : Char)
  /-- A class. -/
  | cls (c : CharClass)
  /-- A condition. -/
  | look (l : Look)

/-- A class with the other case of its letters where the flags ask for it. -/
def foldClass (flags : Flags) (c : CharClass) : CharClass :=
  if !flags.ignoreCase then c
  else if flags.unicode then Unicode.foldCase c
  else Unicode.foldAscii c

/-- All characters outside a class. Without Unicode these would be bytes, of which some are no
characters. -/
def negateClass (flags : Flags) (c : CharClass) : Except String CharClass :=
  if flags.unicode then .ok c.not else .error "class may split a character"

/-! ## Characters -/

/-- Characters with a meaning of their own. -/
def metaChars : List Char :=
  "\\.+*?()|[]\x7b\x7d^$#&-~".toList

/-- Whether a backslash before the character stands for the character itself. -/
def isEscapable (c : Char) : Bool :=
  metaChars.contains c || (c.toNat < 0x80 && !c.isAlphanum && c != '<' && c != '>')

/-- The character with the given hexadecimal digits. -/
def hexChar (digits : List Char) : Except String Char :=
  match digits.mapM hexValue? with
  | none => .error "invalid hexadecimal digit"
  | some [] => .error "empty hexadecimal escape"
  | some ds =>
    let n := ds.foldl (fun n d => min (16 * n + d) 0x110000) 0
    match charOfNumber? n with
    | some c => .ok c
    | none => .error "invalid character in hexadecimal escape"

/-- Reads a hexadecimal escape: a fixed number of digits, or any in braces. -/
def readHex (flags : Flags) (count : Nat) (cs : List Char) : Except String (Char × List Char) :=
  match skipBlanks flags cs with
  | '{' :: rest =>
    match takeSignificant flags (· != '}') (skipBlanks flags rest) with
    | (digits, '}' :: rest) => do return (← hexChar digits, rest)
    | _ => .error "unclosed hexadecimal escape"
  | cs =>
    match takeCount? flags count cs with
    | none => .error "unfinished hexadecimal escape"
    | some (digits, rest) => do
      let c ← hexChar digits
      -- two digits alone may mean a byte
      if !flags.unicode && count = 2 && c.toNat ≥ 0x80 then throw "escape may split a character"
      return (c, rest)

/-! ## Classes -/

/-- The class of a property name between braces. A value may follow a colon or an equals sign. An
exclamation mark before the sign changes nothing. -/
def propertyClass (name : List Char) : Option CharClass :=
  let before (sep : Char) : List Char := name.takeWhile (· != sep)
  let after (sep : Char) : List Char := (name.dropWhile (· != sep)).tail
  match splitUnequal [] name with
  | some (property, value) => Unicode.propertyValue? property value
  | none =>
    if name.contains ':' then Unicode.propertyValue? (before ':') (after ':')
    else if name.contains '=' then Unicode.propertyValue? (before '=') (after '=')
    else Unicode.property? name
where
  /-- The parts before and after an unequal sign. -/
  splitUnequal (acc : List Char) : List Char → Option (List Char × List Char)
    | '!' :: '=' :: rest => some (acc.reverse, rest)
    | c :: rest => splitUnequal (c :: acc) rest
    | [] => none

/-- Reads the name of a property class. -/
def readProperty (flags : Flags) (negated : Bool) (cs : List Char) :
    Except String (CharClass × List Char) := do
  let (name, rest) ← match skipBlanks flags cs with
    | [] => throw "unfinished property class"
    | '{' :: rest =>
      match takeSignificant flags (· != '}') (skipBlanks flags rest) with
      | (name, '}' :: rest) => pure (name, rest)
      | _ => throw "unclosed property class"
    | '\\' :: _ => throw "invalid property class"
    | c :: rest => pure ([c], rest)
  if !flags.unicode then throw "property class without Unicode"
  match propertyClass name with
  | none => throw "unknown property class"
  | some c =>
    let c := foldClass flags c
    return (if negated then c.not else c, rest)

/-- Word characters. -/
def wordClass (flags : Flags) : CharClass :=
  if flags.unicode then Unicode.word
  else .ascii [(48, 57), (65, 90), (95, 95), (97, 122)]

/-- The class of a letter for digits, blanks or word characters; an upper-case letter stands for all
others. -/
def letterClass (flags : Flags) (letter : Char) : Except String CharClass :=
  let base := match letter.toLower with
    | 'd' => if flags.unicode then Unicode.digit else .ascii [(48, 57)]
    | 's' => if flags.unicode then Unicode.space else .ascii [(9, 13), (32, 32)]
    | _ => wordClass flags
  if letter.isUpper then negateClass flags base else .ok base

/-! ## Conditions -/

/-- The names of word edges in braces. -/
def wordEdge? : List Char → Option WordEdge
  | ['s', 't', 'a', 'r', 't'] => some .start
  | ['e', 'n', 'd'] => some .stop
  | ['s', 't', 'a', 'r', 't', '-', 'h', 'a', 'l', 'f'] => some .noneBefore
  | ['e', 'n', 'd', '-', 'h', 'a', 'l', 'f'] => some .noneAfter
  | _ => none

/-- Reads what may follow the escape of a word edge: the name of a special one in braces. Braces
around anything but letters and hyphens are left for a repetition. -/
def readWordEdge (flags : Flags) (cs : List Char) : Except String (Atom × List Char) :=
  let plain : Except String (Atom × List Char) :=
    .ok (.look (.word .boundary (wordClass flags)), cs)
  let isNameChar (c : Char) : Bool := c.isAlpha || c == '-'
  match cs with
  | '{' :: rest =>
    match takeSignificant flags isNameChar (skipBlanks flags rest) with
    | (_, []) => .error "unclosed word boundary"
    | ([], _) => plain
    | (name, '}' :: rest) =>
      match wordEdge? name with
      | some edge => .ok (.look (.word edge (wordClass flags)), rest)
      | none => .error "unknown word boundary"
    | _ => .error "unclosed word boundary"
  | _ => plain

/-- Reads what follows a backslash. -/
def readEscape (flags : Flags) (cs : List Char) : Except String (Atom × List Char) :=
  match cs with
  | [] => .error "unfinished escape"
  | c :: rest =>
    let char (c : Char) : Except String (Atom × List Char) := .ok (.char c, rest)
    let look (l : Look) : Except String (Atom × List Char) := .ok (.look l, rest)
    let hex (count : Nat) : Except String (Atom × List Char) :=
      (readHex flags count rest).map fun r => (.char r.1, r.2)
    if c.isDigit then .error "reference to a group"
    else if c = 'p' ∨ c = 'P' then
      (readProperty flags (c == 'P') rest).map fun r => (.cls r.1, r.2)
    else if ['d', 'D', 's', 'S', 'w', 'W'].contains c then
      (letterClass flags c).map fun k => (.cls k, rest)
    else if isEscapable c then char c
    else
      match c with
      | 'x' => hex 2
      | 'u' => hex 4
      | 'U' => hex 8
      | 'a' => char '\x07'
      | 'f' => char '\x0c'
      | 't' => char '\t'
      | 'n' => char '\n'
      | 'r' => char '\r'
      | 'v' => char '\x0b'
      | 'A' => look .textStart
      | 'z' => look .textEnd
      | 'b' => readWordEdge flags rest
      | 'B' => look (.word .inside (wordClass flags))
      | '<' => look (.word .start (wordClass flags))
      | '>' => look (.word .stop (wordClass flags))
      | _ => .error "unknown escape"

end EdgeBundle.Pattern
