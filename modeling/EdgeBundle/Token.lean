/-!
# Tokens

Significant tokens of a module source. Comments, blanks and a leading hashbang line produce no
token.
-/

namespace EdgeBundle

/-- Lexical class of a token. -/
inductive TokenKind where
  /-- Identifier or keyword, a private name included. -/
  | ident
  /-- Punctuator of one or more characters. -/
  | punct
  /-- Quoted string literal, quotes included. -/
  | str
  /-- Whole template literal, or its part after the last substitution. -/
  | template
  /-- Part of a template literal that ends by opening a substitution. -/
  | templateHead
  /-- Regular expression literal with its flags. -/
  | regex
  /-- Numeric literal. -/
  | number
  deriving DecidableEq, Repr, Inhabited

/-- A significant token: its class, the byte offset of its first character, and its text. -/
structure Token where
  /-- Lexical class. -/
  kind : TokenKind
  /-- Byte offset of the first character. -/
  start : Nat
  /-- Characters of the token. -/
  text : String
  deriving DecidableEq, Repr, Inhabited

namespace Token

/-- Byte offset one past the last character. -/
def stop (t : Token) : Nat :=
  t.start + t.text.utf8ByteSize

/-- Whether the token is the punctuator `p`. -/
def isPunct (t : Token) (p : String) : Bool :=
  t.kind == .punct && t.text == p

/-- Whether the token is the identifier or keyword `word`. -/
def isWord (t : Token) (word : String) : Bool :=
  t.kind == .ident && t.text == word

end Token

end EdgeBundle
