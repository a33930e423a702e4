import EdgeBundle.Pattern.Expansion
import EdgeBundle.Pattern.Footprint
import EdgeBundle.Pattern.Parser.Class

/-!
# Pattern syntax

Reads a pattern from its text: literals and escapes, classes with nested sets and set operations,
groups with numbers and names, repetitions, conditions on places, and flags. References back to a
group and conditions on what follows or precedes are not part of the syntax.
-/

namespace EdgeBundle.Pattern

/-! ## Repetitions -/

/-- Reads a decimal number with blanks around it; none if there are no digits. -/
def readCount (flags : Flags) (cs : List Char) : Except String (Option Nat × List Char) :=
  let (ds, rest) := takeSignificant flags Char.isDigit (cs.dropWhile isWhiteSpace)
  let rest := (takeSignificant flags isWhiteSpace rest).2
  if ds.isEmpty then .ok (none, rest)
  else
    -- the bound keeps the number small however many digits there are
    let n := ds.foldl (fun n d => min (10 * n + (d.toNat - 48)) UInt32.size) 0
    if n < UInt32.size then .ok (some n, rest) else .error "repetition count out of range"

/-- Reads the numbers of a counted repetition, from after the opening brace. -/
def readCounts (flags : Flags) (cs : List Char) :
    Except String ((Nat × Option Nat) × List Char) := do
  let (low, rest) ← readCount flags (skipBlanks flags cs)
  let some low := low | throw "missing repetition count"
  match rest with
  | '}' :: after => return ((low, some low), after)
  | ',' :: rest =>
    match skipBlanks flags rest with
    | '}' :: after => return ((low, none), after)
    | rest =>
      let (high, rest) ← readCount flags rest
      let some high := high | throw "missing repetition count"
      match rest with
      | '}' :: after =>
        if high < low then throw "repetition counts out of order"
        return ((low, some high), after)
      | _ => throw "unclosed repetition"
  | _ => throw "unclosed repetition"

/-- Reads whether a repetition is greedy: a question mark turns the rule in force round. -/
def readGreed (flags : Flags) (cs : List Char) : Bool × List Char :=
  match cs with
  | '?' :: rest => (flags.swapGreed, rest)
  | _ => (!flags.swapGreed, cs)

/-! ## Group names -/

/-- Whether a character may start the name of a group. -/
def isGroupNameStart (c : Char) : Bool :=
  c == '_' || Unicode.alphabetic.contains c

/-- Whether a character may go on with the name of a group. -/
def isGroupNameChar (c : Char) : Bool :=
  c == '_' || c == '.' || c == '[' || c == ']' || Unicode.alphabetic.contains c
    || (Unicode.categories.getAll ["nd", "nl", "no"]).contains c

/-- Reads the name of a group up to the closing angle bracket. -/
def readGroupName (cs : List Char) : Except String (String × List Char) :=
  match cs.span (· != '>') with
  | (_, []) => .error "unclosed group name"
  | ([], _) => .error "empty group name"
  | (c :: name, _ :: rest) =>
    if isGroupNameStart c && name.all isGroupNameChar then .ok (String.ofList (c :: name), rest)
    else .error "invalid group name"

/-! ## Single items -/

/-- The expression of an atom. Characters outside ASCII have no other case without Unicode. -/
def Atom.expr (flags : Flags) : Atom → Expr
  | .char c =>
    if flags.ignoreCase then .ofClass (foldClass flags (.single c)) else .text [c]
  | .cls c => .ofClass c
  | .look l => .look l

/-- The expression of a dot. -/
def dot (flags : Flags) : Except String Expr :=
  if !flags.unicode then .error "dot may split a character"
  else if flags.dotAll then .ok (.one .any)
  else if flags.carriageReturn then .ok (.one (CharClass.ofChars ['\n', '\r']).not)
  else .ok (.one (CharClass.single '\n').not)

/-- The condition of a circumflex. -/
def startLook (flags : Flags) : Look :=
  if !flags.multiLine then .textStart
  else if flags.carriageReturn then .lineStartCR
  else .lineStart

/-- The condition of a dollar sign. -/
def endLook (flags : Flags) : Look :=
  if !flags.multiLine then .textEnd
  else if flags.carriageReturn then .lineEndCR
  else .lineEnd

/-! ## Whole patterns -/

/-- Greatest depth to which syntax may nest. -/
def depthLimit : Nat := 250

/-- Part of a pattern that has been read. -/
structure Item where
  /-- What it says. -/
  expr : Expr
  /-- Depth of groups, classes, repetitions, sequences and choices. -/
  depth : Nat := 0
  /-- Whether a repetition may follow. -/
  repeatable : Bool := true

/-- What reading has come to. -/
structure State where
  /-- Pattern that is left. -/
  rest : List Char
  /-- Flags in force. -/
  flags : Flags := {}
  /-- Number of groups so far. -/
  groups : Nat := 0
  /-- Names of groups with their numbers. -/
  names : List (String × Nat) := []

/-- Several items as one; what joins them counts if there is more than one. -/
def joinItems (join : List Expr → Expr) (items : List Item) : Item :=
  let depth := items.foldl (fun n i => max n i.depth) 0
  { expr := join (items.map Item.expr), depth := if items.length ≥ 2 then depth + 1 else depth }

/-- The sequence of items, which are given the latest first. -/
def sequenceOf (items : List Item) : Item :=
  joinItems .inSequence items.reverse

/-- The choice between branches, with the items of the last one; both are given the latest first. -/
def choiceOf (branches items : List Item) : Item :=
  joinItems .choice (sequenceOf items :: branches).reverse

/-- Applies a repetition to the latest item. -/
def repeatLast (low : Nat) (high : Option Nat) (greedy : Bool) (items : List Item) :
    Except String (List Item) :=
  match items with
  | ⟨e, depth, true⟩ :: items => .ok (⟨.repeated low high greedy e, depth + 1, true⟩ :: items)
  | _ => .error "nothing to repeat"

mutual

/-- Reads branches and items up to a closing parenthesis or the end. What has been read is in
`branches` and `items`, the latest first; `depth` is the number of open groups and `fuel` bounds the
number of steps. -/
def readBody (fuel depth : Nat) (branches items : List Item) (s : State) :
    Except String (Item × State) :=
  match fuel with
  | 0 => .error "pattern too long"
  | fuel + 1 =>
    let add (i : Item) (rest : List Char) : Except String (Item × State) :=
      readBody fuel depth branches (i :: items) { s with rest }
    let repeated (low : Nat) (high : Option Nat) (rest : List Char) :
        Except String (Item × State) :=
      let (greedy, rest) := readGreed s.flags rest
      match repeatLast low high greedy items with
      | .error e => .error e
      | .ok items => readBody fuel depth branches items { s with rest }
    match skipBlanks s.flags s.rest with
    | [] => .ok (choiceOf branches items, { s with rest := [] })
    | c :: rest =>
      match c with
      | ')' => .ok (choiceOf branches items, { s with rest := c :: rest })
      | '|' => readBody fuel depth (sequenceOf items :: branches) [] { s with rest }
      | '(' => readGroup fuel depth branches items { s with rest := skipBlanks s.flags rest }
      | '[' =>
        match readClass s.flags rest with
        | .error e => .error e
        | .ok (r, rest) => add { expr := .ofClass r.set, depth := r.depth } rest
      | '*' => repeated 0 none rest
      | '+' => repeated 1 none rest
      | '?' => repeated 0 (some 1) rest
      | '{' =>
        match readCounts s.flags rest with
        | .error e => .error e
        | .ok ((low, high), rest) => repeated low high (skipBlanks s.flags rest)
      | '.' =>
        match dot s.flags with
        | .error e => .error e
        | .ok expr => add { expr } rest
      | '^' => add { expr := .look (startLook s.flags) } rest
      | '$' => add { expr := .look (endLook s.flags) } rest
      | '\\' =>
        match readEscape s.flags rest with
        | .error e => .error e
        | .ok (a, rest) => add { expr := a.expr s.flags } rest
      | c => add { expr := (Atom.char c).expr s.flags } rest

/-- Reads a group from after its opening parenthesis, then goes on with what follows it. -/
def readGroup (fuel depth : Nat) (branches items : List Item) (s : State) :
    Except String (Item × State) :=
  match fuel with
  | 0 => .error "pattern too long"
  | fuel + 1 =>
    let inner (index : Option Nat) (t : State) : Except String (Item × State) :=
      if depth ≥ depthLimit then .error "pattern nested too deeply"
      else
        match readBody fuel (depth + 1) [] [] t with
        | .error e => .error e
        | .ok (i, u) =>
          match u.rest with
          | ')' :: rest =>
            let expr := match index with
              | some n => .group n i.expr
              | none => i.expr
            readBody fuel depth branches ({ expr, depth := i.depth + 1 } :: items)
              { u with rest, flags := s.flags }
          | _ => .error "unclosed group"
    let capture (name : Option String) (rest : List Char) : Except String (Item × State) :=
      let index := s.groups + 1
      match name with
      | none => inner (some index) { s with rest, groups := index }
      | some name =>
        if (s.names.lookup name).isSome then .error "repeated group name"
        else inner (some index) { s with rest, groups := index, names := (name, index) :: s.names }
    match s.rest with
    | [] => .error "unclosed group"
    | '?' :: 'P' :: '<' :: rest =>
      match readGroupName rest with
      | .error e => .error e
      | .ok (name, rest) => capture (some name) rest
    | '?' :: '=' :: _ | '?' :: '!' :: _ | '?' :: '<' :: '=' :: _ | '?' :: '<' :: '!' :: _ =>
      .error "condition on what follows or precedes"
    | '?' :: '<' :: rest =>
      match readGroupName rest with
      | .error e => .error e
      | .ok (name, rest) => capture (some name) rest
    | '?' :: rest =>
      match readFlags s.flags false [] false rest with
      | .error e => .error e
      | .ok ((flags, true), rest) => inner none { s with rest, flags }
      | .ok ((flags, false), rest) =>
        readBody fuel depth branches ({ expr := .empty, repeatable := false } :: items)
          { s with rest, flags }
    | rest => capture none rest

end

/-- Reads a pattern, with the numbers of its named groups. -/
def parse (text : String) : Except String (Pattern × List (String × Nat)) :=
  let cs := text.toList
  match readBody (2 * cs.length + 2) 0 [] [] { rest := cs } with
  | .error e => .error e
  | .ok (i, s) =>
    if !s.rest.isEmpty then .error "unopened group"
    else if i.depth > depthLimit then .error "pattern nested too deeply"
    else if !i.expr.isWithinLimit then .error "pattern too large"
    else .ok (i.expr.toPattern, s.names)

end EdgeBundle.Pattern
