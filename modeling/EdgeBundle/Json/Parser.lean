import EdgeBundle.Json
import EdgeBundle.Text.Hex

/-!
# Reading JSON

Reads a value from its text. Objects come out with their members sorted by key, the last of equal
keys winning, since JSON gives the order of members no meaning.
-/

namespace EdgeBundle.Json

/-- Blanks between tokens. -/
def isBlank (c : Char) : Bool :=
  c == ' ' || c == '\t' || c == '\n' || c == '\r'

/-- The text after leading blanks. -/
def skipBlanks (cs : List Char) : List Char :=
  cs.dropWhile isBlank

/-- Value of four hexadecimal digits. -/
def hexValue4? (a b c d : Char) : Option Nat := do
  let a ← hexValue? a
  let b ← hexValue? b
  let c ← hexValue? c
  let d ← hexValue? d
  return ((a * 16 + b) * 16 + c) * 16 + d

/-- The character that a simple escape stands for. -/
def simpleEscape? : Char → Option Char
  | '"' => some '"'
  | '\\' => some '\\'
  | '/' => some '/'
  | 'b' => some '\x08'
  | 'f' => some '\x0c'
  | 'n' => some '\n'
  | 'r' => some '\r'
  | 't' => some '\t'
  | _ => none

/-- Reads up to and including the closing quote; `acc` holds the characters read so far, the
latest first. A code unit of a surrogate pair counts only together with its partner. -/
def readString (acc : List Char) : List Char → Option (List Char × List Char)
  | [] => none
  | '"' :: cs => some (acc.reverse, cs)
  | '\\' :: 'u' :: a :: b :: c :: d :: cs =>
    match hexValue4? a b c d with
    | none => none
    | some n =>
      if 0xD800 ≤ n ∧ n < 0xDC00 then
        match cs with
        | '\\' :: 'u' :: e :: f :: g :: h :: cs =>
          match hexValue4? e f g h with
          | none => none
          | some m =>
            if 0xDC00 ≤ m ∧ m < 0xE000 then
              readString (Char.ofNat (0x10000 + (n - 0xD800) * 0x400 + (m - 0xDC00)) :: acc) cs
            else none
        | _ => none
      else if 0xDC00 ≤ n ∧ n < 0xE000 then none
      else readString (Char.ofNat n :: acc) cs
  | '\\' :: e :: cs =>
    match simpleEscape? e with
    | none => none
    | some c => readString (c :: acc) cs
  | c :: cs => if c.toNat < 0x20 then none else readString (c :: acc) cs

/-- Value of decimal digits. -/
def digitsValue (ds : List Char) : Nat :=
  ds.foldl (fun n d => 10 * n + (d.toNat - 48)) 0

/-- The exponent after a number's digits: none read is zero, a mark without digits is an error. -/
def readExponent (cs : List Char) : Option (Bool × Int × List Char) :=
  match cs with
  | c :: rest =>
    if c = 'e' ∨ c = 'E' then
      let (negative, rest) : Bool × List Char := match rest with
        | '-' :: r => (true, r)
        | '+' :: r => (false, r)
        | r => (false, r)
      let ds := rest.takeWhile Char.isDigit
      if ds.isEmpty then none
      else
        let n : Int := digitsValue ds
        some (true, if negative then -n else n, rest.dropWhile Char.isDigit)
    else some (false, 0, cs)
  | [] => some (false, 0, cs)

/-- Reads a number. An integer that fits 64 bits stays one; a negative zero does not. -/
def readNumber (cs : List Char) : Option (JsonNumber × List Char) := do
  let (negative, cs) : Bool × List Char := match cs with
    | '-' :: r => (true, r)
    | r => (false, r)
  let whole := cs.takeWhile Char.isDigit
  let cs := cs.dropWhile Char.isDigit
  if whole.isEmpty ∨ (whole.length > 1 ∧ whole.head? = some '0') then none
  let (fraction, cs) : List Char × List Char := match cs with
    | '.' :: r => (r.takeWhile Char.isDigit, '.' :: r.dropWhile Char.isDigit)
    | r => ([], r)
  let (pointed, cs) : Bool × List Char := match cs with
    | '.' :: r => (true, r)
    | r => (false, r)
  if pointed ∧ fraction.isEmpty then none
  let (scaled, exponent, cs) ← readExponent cs
  let n := digitsValue whole
  if ¬pointed ∧ ¬scaled ∧ ¬negative ∧ n < UInt64.size then
    return (.integer n, cs)
  else if ¬pointed ∧ ¬scaled ∧ negative ∧ 0 < n ∧ n ≤ UInt64.size / 2 then
    return (.integer (-n), cs)
  else
    let d ← Double.ofDecimal? negative (digitsValue (whole ++ fraction))
      (exponent - (fraction.length : Int))
    return (.double d, cs)

mutual

/-- Reads one value at the start of the text; `fuel` bounds the number of values and blanks. -/
def readValue (fuel : Nat) (cs : List Char) : Option (Json × List Char) :=
  match fuel with
  | 0 => none
  | fuel + 1 =>
    match skipBlanks cs with
    | '"' :: cs => (readString [] cs).map fun (s, cs) => (.string (String.ofList s), cs)
    | '[' :: cs =>
      match skipBlanks cs with
      | ']' :: cs => some (.array [], cs)
      | cs => readItems fuel [] cs
    | '{' :: cs =>
      match skipBlanks cs with
      | '}' :: cs => some (.object [], cs)
      | cs => readMembers fuel [] cs
    | 't' :: 'r' :: 'u' :: 'e' :: cs => some (.bool true, cs)
    | 'f' :: 'a' :: 'l' :: 's' :: 'e' :: cs => some (.bool false, cs)
    | 'n' :: 'u' :: 'l' :: 'l' :: cs => some (.null, cs)
    | cs => (readNumber cs).map fun (n, cs) => (.number n, cs)

/-- Reads items up to the closing bracket; `acc` holds the items read so far, the latest first. -/
def readItems (fuel : Nat) (acc : List Json) (cs : List Char) : Option (Json × List Char) :=
  match fuel with
  | 0 => none
  | fuel + 1 =>
    match readValue fuel cs with
    | none => none
    | some (item, cs) =>
      match skipBlanks cs with
      | ',' :: cs => readItems fuel (item :: acc) cs
      | ']' :: cs => some (.array (item :: acc).reverse, cs)
      | _ => none

/-- Reads members up to the closing brace; `acc` holds the members read so far, the latest
first. -/
def readMembers (fuel : Nat) (acc : List (String × Json)) (cs : List Char) :
    Option (Json × List Char) :=
  match fuel with
  | 0 => none
  | fuel + 1 =>
    match skipBlanks cs with
    | '"' :: cs =>
      match readString [] cs with
      | none => none
      | some (key, cs) =>
        match skipBlanks cs with
        | ':' :: cs =>
          match readValue fuel cs with
          | none => none
          | some (value, cs) =>
            let acc := (String.ofList key, value) :: acc
            match skipBlanks cs with
            | ',' :: cs => readMembers fuel acc cs
            | '}' :: cs => some (.object (sortMembers acc.reverse), cs)
            | _ => none
        | _ => none
    | _ => none

end

/-- The value that a whole text holds. -/
def parse? (text : String) : Option Json :=
  let cs := text.toList
  match readValue (2 * cs.length + 2) cs with
  | some (value, rest) => if (skipBlanks rest).isEmpty then some value else none
  | none => none

end EdgeBundle.Json
