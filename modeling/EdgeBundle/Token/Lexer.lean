import EdgeBundle.Text.Width
import EdgeBundle.Token

/-!
# Lexer

Cuts a module source into significant tokens. Only token boundaries matter here, so there is no
syntax tree; but everything that can hide an `import` or `export` keyword is stepped over:
strings, template literals with nested substitutions, regular expression literals and comments.

A slash starts a regular expression exactly where an operand may start, which the token before it
decides. Only a closing parenthesis needs more context: it ends an operand unless it closes the
head of an `if`, `while`, `for` or `with` statement.

Each scanner below returns how many characters a lexeme has after its first one, so the lexer
always moves forward and the lexemes join up to the source.
-/

namespace EdgeBundle

/-- What a source leaves open. -/
inductive LexFault where
  /-- A quoted string without its closing quote on the same line. -/
  | unclosedString
  /-- Template text that reaches the end of the source. -/
  | unclosedTemplate
  /-- A regular expression without its closing slash on the same line. -/
  | unclosedRegex
  /-- A block comment that reaches the end of the source. -/
  | unclosedComment
  deriving DecidableEq, Repr

namespace LexFault

/-- Wording of a fault. -/
def message : LexFault → String
  | unclosedString => "unterminated string literal"
  | unclosedTemplate => "unterminated template literal"
  | unclosedRegex => "unterminated regular expression literal"
  | unclosedComment => "unterminated block comment"

end LexFault

/-- A fault with the byte offset at which the broken construct starts. -/
structure LexError where
  /-- Byte offset of the broken construct. -/
  offset : Nat
  /-- What was left open. -/
  fault : LexFault
  deriving DecidableEq, Repr

/-- Wording of a lexical error with its place. -/
def LexError.message (e : LexError) : String :=
  s!"{e.fault.message} at byte {e.offset}"

namespace Lexer

/-- Keywords after which a slash starts a regular expression. -/
def operandKeywords : List String :=
  ["return", "typeof", "case", "do", "else", "in", "of", "new", "delete", "void", "throw",
    "instanceof", "yield", "await"]

/-- Keywords whose parenthesized head is followed by a statement. -/
def headKeywords : List String :=
  ["if", "while", "for", "with"]

/-- Punctuators of more than one character, longest first. -/
def longPuncts : List String :=
  [">>>=", "...", "===", "!==", "**=", "<<=", ">>=", ">>>", "&&=", "||=", "??=", "=>", "==", "!=",
    "<=", ">=", "&&", "||", "??", "?.", "++", "--", "+=", "-=", "*=", "/=", "%=", "&=", "|=", "^=",
    "**", "<<", ">>"]

/-- Blank characters between tokens. -/
def isBlank (c : Char) : Bool :=
  c == ' ' || c == '\t' || c == '\n' || c == '\r' || c == '\x0b' || c == '\x0c'

/-- Characters that start an identifier; every character outside ASCII does. -/
def isIdentStart (c : Char) : Bool :=
  c.isAlpha || c == '_' || c == '$' || c == '\\' || c.val ≥ 0x80

/-- Characters that continue an identifier. -/
def isIdentPart (c : Char) : Bool :=
  isIdentStart c || c.isDigit

/-! ## Lengths of lexemes -/

/-- Characters up to, not including, the next newline. -/
def lineLength (cs : List Char) : Nat :=
  (cs.takeWhile (· != '\n')).length

/-- Characters up to and including the next `*/`, counted on from `n`. -/
def commentLength (n : Nat) : List Char → Option Nat
  | [] => none
  | '*' :: '/' :: _ => some (n + 2)
  | _ :: cs => commentLength (n + 1) cs

/-- Characters up to and including the closing `quote`, counted on from `n`. A backslash takes
the next character with it; a bare newline leaves the string open. -/
def stringLength (quote : Char) (n : Nat) : List Char → Option Nat
  | [] => none
  | '\\' :: cs =>
    match cs with
    | [] => none
    | _ :: cs => stringLength quote (n + 2) cs
  | c :: cs =>
    if c = '\n' then none
    else if c = quote then some (n + 1)
    else stringLength quote (n + 1) cs

/-- Characters of template text up to and including its closing backtick or the `$` and brace
that open a substitution, counted on from `n`. -/
def templateLength (n : Nat) : List Char → Option (TokenKind × Nat)
  | [] => none
  | '\\' :: cs =>
    match cs with
    | [] => none
    | _ :: cs => templateLength (n + 2) cs
  | '`' :: _ => some (.template, n + 1)
  | '$' :: '{' :: _ => some (.templateHead, n + 2)
  | _ :: cs => templateLength (n + 1) cs

/-- Characters of a regular expression body up to and including the closing slash, counted on
from `n`. A slash inside a character class does not close it. -/
def regexLength (inClass : Bool) (n : Nat) : List Char → Option Nat
  | [] => none
  | '\\' :: cs =>
    match cs with
    | [] => none
    | _ :: cs => regexLength inClass (n + 2) cs
  | c :: cs =>
    if c = '\n' then none
    else if c = '[' then regexLength true (n + 1) cs
    else if c = ']' then regexLength false (n + 1) cs
    else if c = '/' && !inClass then some (n + 1)
    else regexLength inClass (n + 1) cs

/-- Characters that continue an identifier. -/
def identLength (cs : List Char) : Nat :=
  (cs.takeWhile isIdentPart).length

/-- Characters that continue a numeric literal after `last`, counted on from `n`. A sign belongs
to it after an exponent mark, unless the literal is hexadecimal. -/
def numberLength (hex : Bool) (last : Char) (n : Nat) : List Char → Nat
  | [] => n
  | c :: cs =>
    let sign := (c == '+' || c == '-') && !hex && (last == 'e' || last == 'E')
    if c.isAlphanum || c == '_' || c == '.' || sign then numberLength hex c (n + 1) cs else n

/-- The longest punctuator that starts with the given characters, if it has more than one. A
question mark and point before a digit are two tokens, since the point starts a number. -/
def longPunct? (cs : List Char) : Option String :=
  (longPuncts.find? fun p => p.toList.isPrefixOf cs).filter fun p =>
    p != "?." || !((cs.drop 2).head?.any Char.isDigit)

/-! ## Context -/

/-- What an open brace is waiting for. -/
inductive Brace where
  /-- The end of a block or object. -/
  | block
  /-- The end of a template substitution. -/
  | substitution
  deriving DecidableEq, Repr

/-- What the tokens so far say about the next one. -/
structure Context where
  /-- Tokens so far, the latest first. -/
  tokens : List Token := []
  /-- Open braces, the innermost first. -/
  braces : List Brace := []
  /-- For each open parenthesis, whether it opens a statement head; the innermost first. -/
  parens : List Bool := []
  /-- Whether the latest closing parenthesis closed a statement head. -/
  closedHead : Bool := false
  deriving Repr

namespace Context

/-- Whether an opening parenthesis here starts a statement head, `for await` included. -/
def opensHead (ctx : Context) : Bool :=
  match ctx.tokens with
  | [] => false
  | last :: before =>
    -- the head of `for await (…)` has a word between keyword and parenthesis
    if last.isWord "await" then before.head?.any (·.isWord "for")
    else last.kind == .ident && headKeywords.contains last.text

/-- Whether a slash here starts a regular expression. -/
def allowsRegex (ctx : Context) : Bool :=
  match ctx.tokens with
  | [] => true
  | last :: _ =>
    match last.kind with
    | .ident => operandKeywords.contains last.text
    | .punct =>
      if last.text == ")" then ctx.closedHead
      else !(last.text == "]" || last.text == "++" || last.text == "--")
    | .templateHead => true
    | .str | .template | .regex | .number => false

/-- Whether a closing brace here ends a template substitution. -/
def closesSubstitution (ctx : Context) : Bool :=
  ctx.braces.head? == some .substitution

/-- Braces that are open after the token. -/
def bracesAfter (ctx : Context) (t : Token) : List Brace :=
  match t.kind with
  -- template text that starts with a brace comes after a substitution, which it ends
  | .template => if t.text.toList.head? == some '}' then ctx.braces.tail else ctx.braces
  | .templateHead =>
    .substitution :: (if t.text.toList.head? == some '}' then ctx.braces.tail else ctx.braces)
  | .punct =>
    if t.text == "\x7b" then .block :: ctx.braces
    else if t.text == "\x7d" then ctx.braces.tail
    else ctx.braces
  | _ => ctx.braces

/-- The context after one more token. -/
def push (ctx : Context) (t : Token) : Context :=
  { tokens := t :: ctx.tokens
    braces := ctx.bracesAfter t
    parens :=
      if t.isPunct "(" then ctx.opensHead :: ctx.parens
      else if t.isPunct ")" then ctx.parens.tail
      else ctx.parens
    closedHead := if t.isPunct ")" then ctx.parens.headD false else ctx.closedHead }

end Context

/-! ## Scanning -/

/-- One lexeme: the class of its token, or none for a gap, and how many characters follow its
first one. -/
structure Lexeme where
  /-- Class of the token, none for blanks and comments. -/
  kind : Option TokenKind
  /-- Number of characters after the first. -/
  more : Nat
  deriving DecidableEq, Repr

/-- The lexeme that starts with `c` and goes on into `cs`. -/
def lexeme (ctx : Context) (c : Char) (cs : List Char) : Except LexFault Lexeme :=
  if isBlank c then .ok ⟨none, 0⟩
  else if c = '/' ∧ cs.head? = some '/' then .ok ⟨none, lineLength cs⟩
  else if c = '/' ∧ cs.head? = some '*' then
    match commentLength 1 cs.tail with
    | some n => .ok ⟨none, n⟩
    | none => .error .unclosedComment
  else if c = '\'' ∨ c = '"' then
    match stringLength c 0 cs with
    | some n => .ok ⟨some .str, n⟩
    | none => .error .unclosedString
  -- after a substitution the template text goes on
  else if c = '`' ∨ (c = '}' ∧ ctx.closesSubstitution) then
    match templateLength 0 cs with
    | some (kind, n) => .ok ⟨some kind, n⟩
    | none => .error .unclosedTemplate
  else if c = '/' ∧ ctx.allowsRegex then
    match regexLength false 0 cs with
    -- the flags are part of the literal
    | some n => .ok ⟨some .regex, n + identLength (cs.drop n)⟩
    | none => .error .unclosedRegex
  else if c.isDigit ∨ (c = '.' ∧ cs.head?.any Char.isDigit) then
    -- in a hexadecimal literal `e` is a digit, so a sign after it is an operator
    let hex := c = '0' && (cs.head? == some 'x' || cs.head? == some 'X')
    .ok ⟨some .number, numberLength hex c 0 cs⟩
  else if c = '#' ∨ isIdentStart c then .ok ⟨some .ident, identLength cs⟩
  else
    match longPunct? (c :: cs) with
    | some p => .ok ⟨some .punct, p.length - 1⟩
    | none => .ok ⟨some .punct, 0⟩

/-- Scans the characters from byte `offset` on and returns all tokens, the latest first. -/
def scan (ctx : Context) (offset : Nat) : List Char → Except LexError (List Token)
  | [] => .ok ctx.tokens
  | c :: cs =>
    match lexeme ctx c cs with
    | .error fault => .error ⟨offset, fault⟩
    | .ok ⟨kind, more⟩ =>
      let text := c :: cs.take more
      -- gaps leave the context as it is: only tokens decide what a slash means
      let ctx := match kind with
        | none => ctx
        | some kind => ctx.push ⟨kind, offset, String.ofList text⟩
      scan ctx (offset + utf8Width text) (cs.drop more)
  termination_by cs => cs.length
  decreasing_by simp only [List.length_drop, List.length_cons]; omega

/-- Characters of a hashbang line at the very start of a source. -/
def hashbangLength : List Char → Nat
  | cs@('#' :: '!' :: _) => lineLength cs
  | _ => 0

end Lexer

/-- The significant tokens of a source in order, or the first construct left open. -/
def tokenize (src : String) : Except LexError (List Token) :=
  let cs := src.toList
  let n := Lexer.hashbangLength cs
  (Lexer.scan {} (utf8Width (cs.take n)) (cs.drop n)).map List.reverse

end EdgeBundle
