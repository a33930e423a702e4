import EdgeBundle.Text.Blank

/-!
# Flags of patterns

Switches that change how a pattern is read, and the blanks and comments that one of them allows.
-/

namespace EdgeBundle.Pattern

/-- Switches that change how the following syntax is read. -/
structure Flags where
  /-- Letters match in either case. -/
  ignoreCase : Bool := false
  /-- The anchors match at lines. -/
  multiLine : Bool := false
  /-- The dot matches a newline, too. -/
  dotAll : Bool := false
  /-- Repetitions are lazy unless marked, instead of greedy. -/
  swapGreed : Bool := false
  /-- Classes hold characters outside ASCII. -/
  unicode : Bool := true
  /-- Blanks and comments in the syntax are skipped. -/
  verbose : Bool := false
  /-- A carriage return ends lines, too. -/
  carriageReturn : Bool := false

/-- Reads flags up to a colon or a closing parenthesis; the answer tells whether it is a colon.
`negative` holds from the minus sign on; `seen` holds the flags that have been read. -/
def readFlags (flags : Flags) (negative : Bool) (seen : List Char) (afterMinus : Bool) :
    List Char → Except String ((Flags × Bool) × List Char)
  | [] => .error "unclosed flags"
  | c :: cs =>
    if c = ':' ∨ c = ')' then
      if afterMinus then .error "minus sign without flags"
      else if c = ')' ∧ seen = [] then .error "empty flags"
      else .ok ((flags, c = ':'), cs)
    else if c = '-' then
      if negative then .error "repeated minus sign in flags"
      else readFlags flags true seen true cs
    else if seen.contains c then .error "repeated flag"
    else
      let on := !negative
      let next (f : Flags) : Except String ((Flags × Bool) × List Char) :=
        readFlags f negative (c :: seen) false cs
      match c with
      | 'i' => next { flags with ignoreCase := on }
      | 'm' => next { flags with multiLine := on }
      | 's' => next { flags with dotAll := on }
      | 'U' => next { flags with swapGreed := on }
      | 'u' => next { flags with unicode := on }
      | 'x' => next { flags with verbose := on }
      | 'R' => next { flags with carriageReturn := on }
      | _ => .error "unknown flag"

/-! ## Blanks -/

/-- The pattern without blanks and comments at its start. -/
def skipComments (inComment : Bool) : List Char → List Char
  | [] => []
  | c :: cs =>
    if inComment then skipComments (c != '\n') cs
    else if isWhiteSpace c then skipComments false cs
    else if c = '#' then skipComments true cs
    else c :: cs

/-- Skipping blanks and comments adds nothing. -/
theorem length_skipComments_le (inComment : Bool) (cs : List Char) :
    (skipComments inComment cs).length ≤ cs.length := by
  fun_induction skipComments inComment cs <;> simp_all <;> omega

/-- The pattern from its next significant character on. -/
def skipBlanks (flags : Flags) (cs : List Char) : List Char :=
  if flags.verbose then skipComments false cs else cs

/-- Skipping to the next significant character adds nothing. -/
theorem length_skipBlanks_le (flags : Flags) (cs : List Char) :
    (skipBlanks flags cs).length ≤ cs.length := by
  unfold skipBlanks
  split
  · exact length_skipComments_le false cs
  · exact Nat.le_refl _

/-- The significant characters while a condition holds, with what follows them. Blanks after each
one are skipped. -/
def takeSignificant (flags : Flags) (p : Char → Bool) (cs : List Char) : List Char × List Char :=
  match cs with
  | [] => ([], [])
  | c :: rest =>
    if p c then
      let (taken, rest) := takeSignificant flags p (skipBlanks flags rest)
      (c :: taken, rest)
    else ([], c :: rest)
  termination_by cs.length
  decreasing_by exact Nat.lt_succ_of_le (length_skipBlanks_le flags rest)

/-- The next significant characters, as many as given, with what follows them. Blanks after each one
are skipped. -/
def takeCount? (flags : Flags) : Nat → List Char → Option (List Char × List Char)
  | 0, cs => some ([], cs)
  | _ + 1, [] => none
  | n + 1, c :: rest => do
    let (taken, rest) ← takeCount? flags n (skipBlanks flags rest)
    return (c :: taken, rest)

/-- The character that seems to come after the next one. In a comment it is the first one that is
not blank, and after nothing but blanks the next character as it stands. -/
def peekAfter (flags : Flags) (cs : List Char) : Option Char :=
  if flags.verbose then
    match cs.dropWhile isWhiteSpace with
    | '#' :: comment =>
      match comment.dropWhile isWhiteSpace with
      | [] => cs.head?
      | c :: _ => some c
    | [] => cs.head?
    | c :: _ => some c
  else cs.head?

end EdgeBundle.Pattern
