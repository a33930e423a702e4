import EdgeBundle.Pattern.Parser.Escape

/-!
# Classes in brackets

Reads the members of a class: characters, ranges, classes by name, nested classes, and operations on
sets, which group to the left.
-/

namespace EdgeBundle.Pattern

/-! ## Members -/

/-- The ASCII classes by name. -/
def asciiClass? (name : List Char) : Option CharClass :=
  let runs : Option Runs := match String.ofList name with
    | "alnum" => some [(48, 57), (65, 90), (97, 122)]
    | "alpha" => some [(65, 90), (97, 122)]
    | "ascii" => some [(0, 127)]
    | "blank" => some [(9, 9), (32, 32)]
    | "cntrl" => some [(0, 31), (127, 127)]
    | "digit" => some [(48, 57)]
    | "graph" => some [(33, 126)]
    | "lower" => some [(97, 122)]
    | "print" => some [(32, 126)]
    | "punct" => some [(33, 47), (58, 64), (91, 96), (123, 126)]
    | "space" => some [(9, 13), (32, 32)]
    | "upper" => some [(65, 90)]
    | "word" => some [(48, 57), (65, 90), (95, 95), (97, 122)]
    | "xdigit" => some [(48, 57), (65, 70), (97, 102)]
    | _ => none
  runs.map .ascii

/-- Reads an ASCII class from after its opening bracket, if there is one: whether it is negated, the
class and what follows. -/
def readAsciiClass? (cs : List Char) : Option (Bool × CharClass × List Char) :=
  match cs with
  | ':' :: rest =>
    let (negated, rest) : Bool × List Char := match rest with
      | '^' :: r => (true, r)
      | r => (false, r)
    match rest.span (· != ':') with
    | (name, ':' :: ']' :: after) => (asciiClass? name).map fun c => (negated, c, after)
    | _ => none
  | _ => none

/-- Reads one member of a class that is no nested class. -/
def readMember (flags : Flags) (cs : List Char) : Except String (Atom × List Char) := do
  let (atom, rest) ← match cs with
    | [] => throw "unclosed class"
    | '\\' :: rest => readEscape flags rest
    | c :: rest => pure (.char c, rest)
  match atom with
  | .char c =>
    if !flags.unicode && c.toNat ≥ 0x80 then throw "character outside ASCII without Unicode"
  | _ => pure ()
  return (atom, rest)

/-- The class of a member. -/
def memberClass : Atom → Except String CharClass
  | .char c => .ok (.single c)
  | .cls c => .ok c
  | .look _ => .error "condition in a class"

/-- Reads a member or a range of a class. A hyphen before the closing bracket or before another
hyphen does not make a range. -/
def readRange (flags : Flags) (cs : List Char) : Except String (CharClass × List Char) := do
  let (first, rest) ← readMember flags cs
  let rest := skipBlanks flags rest
  match rest with
  | [] => throw "unclosed class"
  | '-' :: after =>
    if peekAfter flags after = some ']' ∨ peekAfter flags after = some '-' then
      return (← memberClass first, rest)
    let (last, rest) ← readMember flags (skipBlanks flags after)
    match first, last with
    | .char lo, .char hi =>
      if hi < lo then throw "range out of order"
      return (.range lo hi, rest)
    | _, _ => throw "range between classes"
  | _ => return (← memberClass first, rest)

/-! ## Sets -/

/-- An operation on two sets. -/
inductive SetOp where
  /-- Characters of both. -/
  | inter
  /-- Characters of the first only. -/
  | diff
  /-- Characters of exactly one. -/
  | symmDiff

/-- The result of an operation. -/
def SetOp.apply : SetOp → CharClass → CharClass → CharClass
  | .inter, a, b => a.inter b
  | .diff, a, b => a.diff b
  | .symmDiff, a, b => a.symmDiff b

/-- A class with the depth to which its syntax nests. -/
structure ReadClass where
  /-- The class. -/
  set : CharClass
  /-- Depth of brackets, of lists of members and of operations. -/
  depth : Nat

/-- The part of a class that is still being read. -/
structure OpenClass where
  /-- Whether the class is negated. -/
  negated : Bool := false
  /-- Operation that waits for its second set, with the first. -/
  pending : Option (SetOp × ReadClass) := none
  /-- Characters of the members so far. -/
  members : CharClass := .none
  /-- Number of members so far. -/
  count : Nat := 0
  /-- Greatest depth of a member. -/
  depth : Nat := 0

namespace OpenClass

/-- Adds a member. -/
def add (c : CharClass) (o : OpenClass) (depth : Nat := 0) : OpenClass :=
  { o with members := o.members.union c, count := o.count + 1, depth := max o.depth depth }

/-- The set read so far. -/
def value (flags : Flags) (o : OpenClass) : ReadClass :=
  let depth := if o.count ≥ 2 then o.depth + 1 else o.depth
  match o.pending with
  | none => ⟨o.members, depth⟩
  | some (op, before) =>
    ⟨op.apply (foldClass flags before.set) (foldClass flags o.members), max before.depth depth + 1⟩

/-- The set read so far becomes the first one of an operation. -/
def operate (flags : Flags) (op : SetOp) (o : OpenClass) : OpenClass :=
  { negated := o.negated, pending := some (op, o.value flags) }

/-- The finished class. -/
def close (flags : Flags) (o : OpenClass) : Except String ReadClass := do
  let r := o.value flags
  let set := foldClass flags r.set
  return ⟨← if o.negated then negateClass flags set else pure set, r.depth + 1⟩

/-- Opens a class from after its bracket: the mark that negates it, hyphens, and a closing bracket
that stands for itself. -/
def start (flags : Flags) (cs : List Char) : OpenClass × List Char :=
  let cs := skipBlanks flags cs
  let (negated, cs) : Bool × List Char := match cs with
    | '^' :: rest => (true, skipBlanks flags rest)
    | cs => (false, cs)
  let (hyphens, cs) := takeSignificant flags (· == '-') cs
  let o : OpenClass := hyphens.foldl (fun o c => o.add (.single c)) { negated }
  -- an empty class cannot be written: a bracket right at the start is a member
  match hyphens, cs with
  | [], ']' :: rest => (o.add (.single ']'), rest)
  | _, _ => (o, cs)

end OpenClass

/-- Reads the rest of a class; `fuel` bounds the number of its members. Nested classes are read on
the way, with the outer ones waiting in `outer`. -/
def readMembers (flags : Flags) (fuel : Nat) (outer : List OpenClass) (o : OpenClass)
    (cs : List Char) : Except String (ReadClass × List Char) := do
  match fuel with
  | 0 => throw "unclosed class"
  | fuel + 1 =>
    match skipBlanks flags cs with
    | [] => throw "unclosed class"
    | '[' :: rest =>
      match readAsciiClass? rest with
      | some (negated, c, after) =>
        let c := foldClass flags c
        let c ← if negated then negateClass flags c else pure c
        readMembers flags fuel outer (o.add c) after
      | none =>
        let (inner, after) := OpenClass.start flags rest
        readMembers flags fuel (o :: outer) inner after
    | ']' :: rest =>
      let r ← o.close flags
      match outer with
      | [] => return (r, rest)
      | o :: outer => readMembers flags fuel outer (o.add r.set r.depth) rest
    | '&' :: '&' :: rest => readMembers flags fuel outer (o.operate flags .inter) rest
    | '-' :: '-' :: rest => readMembers flags fuel outer (o.operate flags .diff) rest
    | '~' :: '~' :: rest => readMembers flags fuel outer (o.operate flags .symmDiff) rest
    | cs =>
      let (c, rest) ← readRange flags cs
      readMembers flags fuel outer (o.add c) rest

/-- Reads a class from after its opening bracket. -/
def readClass (flags : Flags) (cs : List Char) : Except String (ReadClass × List Char) :=
  let (o, rest) := OpenClass.start flags cs
  readMembers flags (rest.length + 1) [] o rest

end EdgeBundle.Pattern
