/-!
# Quoted text

The JSON form of a string. The same form names modules in the registry and embeds file contents,
so that a quoted text never holds a control character and always fits on one line.
-/

namespace EdgeBundle.Quoted

/-- Lower-case hexadecimal digit. -/
def hexDigit (n : Nat) : Char :=
  if n < 10 then Char.ofNat (48 + n) else Char.ofNat (87 + n)

/-- Written form of one character: quote, backslash and control characters are escaped. -/
def escape (c : Char) : List Char :=
  if c = '"' then ['\\', '"']
  else if c = '\\' then ['\\', '\\']
  else if c = '\n' then ['\\', 'n']
  else if c = '\r' then ['\\', 'r']
  else if c = '\t' then ['\\', 't']
  else if c = '\x08' then ['\\', 'b']
  else if c = '\x0c' then ['\\', 'f']
  else if c.toNat < 0x20 then
    ['\\', 'u', '0', '0', hexDigit (c.toNat / 16), hexDigit (c.toNat % 16)]
  else [c]

/-- Quoted form of a text. -/
def encode (cs : List Char) : List Char :=
  '"' :: cs.flatMap escape ++ ['"']

end EdgeBundle.Quoted

namespace EdgeBundle

/-- Quoted form of a text. -/
def quoted (s : String) : String :=
  String.ofList (Quoted.encode s.toList)

end EdgeBundle
