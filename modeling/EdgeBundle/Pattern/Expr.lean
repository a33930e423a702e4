import EdgeBundle.Pattern

/-!
# Simplified expressions

What a pattern says, in the form that decides how it matches. The operations that build expressions
simplify: sequences and choices are flat, neighbouring literals are joined, a choice between single
characters is a class, and what all branches of a choice start with stands before the choice.
-/

namespace EdgeBundle.Pattern

/-- A simplified expression. Sequences and choices nest to the right. -/
inductive Expr where
  /-- The empty text. -/
  | empty
  /-- A given text, which is not empty. -/
  | text (cs : List Char)
  /-- One character of a class. -/
  | one (c : CharClass)
  /-- The empty text where a condition holds. -/
  | look (l : Look)
  /-- Two expressions in sequence; the first is no sequence itself. -/
  | seq (a b : Expr)
  /-- The first expression or else the second; the first is no choice itself. -/
  | alt (a b : Expr)
  /-- An expression at least `min` and at most `max` times. -/
  | times (min : Nat) (max : Option Nat) (greedy : Bool) (e : Expr)
  /-- An expression whose match is remembered under a number. -/
  | group (index : Nat) (e : Expr)
  deriving DecidableEq, Repr

namespace Expr

/-! ## Lengths -/

/-- Bytes of a code point in UTF-8. -/
def codeSize (n : Nat) : Nat :=
  if n < 0x80 then 1 else if n < 0x800 then 2 else if n < 0x10000 then 3 else 4

/-- Bytes of a text in UTF-8. -/
def textSize (cs : List Char) : Nat :=
  cs.foldl (fun n c => n + codeSize c.toNat) 0

/-- Least number of bytes that the expression matches; none if it matches nothing. -/
def minSize : Expr → Option Nat
  | .empty | .look _ => some 0
  | .text cs => some (textSize cs)
  | .one c => c.runs.head?.map fun r => codeSize r.1
  | .seq a b => do return (← minSize a) + (← minSize b)
  | .alt a b => do return min (← minSize a) (← minSize b)
  | .times least _ _ e => (minSize e).map (least * ·)
  | .group _ e => minSize e

/-- Largest number of bytes that the expression matches; none if there is no bound, or no match. -/
def maxSize : Expr → Option Nat
  | .empty | .look _ => some 0
  | .text cs => some (textSize cs)
  | .one c => c.runs.getLast?.map fun r => codeSize r.2
  | .seq a b => do return (← maxSize a) + (← maxSize b)
  | .alt a b => do return max (← maxSize a) (← maxSize b)
  | .times _ most _ e => do return (← most) * (← maxSize e)
  | .group _ e => maxSize e

/-- Number of nodes. -/
def nodes : Expr → Nat
  | .seq a b | .alt a b => nodes a + nodes b + 1
  | .times _ _ _ e | .group _ e => nodes e + 1
  | _ => 1

/-! ## Building -/

/-- One character of a class: nothing special if there is just one. -/
def ofClass (c : CharClass) : Expr :=
  match c.single? with
  | some ch => .text [ch]
  | none => .one c

/-- The parts of a sequence. -/
def parts : Expr → List Expr
  | .empty => []
  | .seq a b => parts a ++ parts b
  | e => [e]

/-- The branches of a choice. -/
def branches : Expr → List Expr
  | .alt a b => branches a ++ branches b
  | e => [e]

/-- Joins neighbouring literals. -/
def joinTexts (es : List Expr) : List Expr :=
  es.foldr (fun e joined =>
    match e, joined with
    | .text cs, .text ds :: rest => .text (cs ++ ds) :: rest
    | e, joined => e :: joined) []

/-- The sequence with the given parts. -/
def ofParts : List Expr → Expr
  | [] => .empty
  | [e] => e
  | e :: es => .seq e (ofParts es)

/-- The choice with the given branches. -/
def ofBranches : List Expr → Expr
  | [] => .one .none
  | [e] => e
  | e :: es => .alt e (ofBranches es)

/-- Expressions in sequence. -/
def inSequence (es : List Expr) : Expr :=
  ofParts (joinTexts (es.flatMap parts))

/-- The class of an expression that matches single characters. -/
def class? : Expr → Option CharClass
  | .one c => some c
  | .text [ch] => some (.single ch)
  | _ => none

/-- What two lists start with. -/
def commonStart : List Expr → List Expr → List Expr
  | a :: as, b :: bs => if a = b then a :: commonStart as bs else []
  | _, _ => []

/-- What all branches of a choice start with, if each is a sequence of at least two parts. -/
def sharedStart (es : List Expr) : List Expr :=
  let lists := es.map parts
  if lists.all fun ps => ps.length ≥ 2 then
    match lists with
    | [] => []
    | ps :: rest => rest.foldl commonStart ps
  else []

/-- A choice; `fuel` bounds how often something that all branches start with is put before it. -/
def choiceWithin (fuel : Nat) (es : List Expr) : Expr :=
  let es := es.flatMap branches
  match es with
  | [e] => e
  | _ =>
    match es.mapM class? with
    | some cs => ofClass (.unions cs)
    | none =>
      match fuel, sharedStart es with
      | 0, _ | _, [] => ofBranches es
      | fuel + 1, shared =>
        let ends := es.map fun e => inSequence ((parts e).drop shared.length)
        inSequence (shared ++ [choiceWithin fuel ends])

/-- A choice between expressions, the first that leads to a match counting. -/
def choice (es : List Expr) : Expr :=
  choiceWithin (es.foldl (fun n e => n + e.nodes) 0) es

/-- A repeated expression. One that matches the empty text only is not repeated. -/
def repeated (min : Nat) (max : Option Nat) (greedy : Bool) (e : Expr) : Expr :=
  let (min, max) : Nat × Option Nat :=
    if e.maxSize = some 0 then (Nat.min min 1, some (Nat.min (max.getD 1) 1)) else (min, max)
  if min = 0 ∧ max = some 0 then .empty
  else if min = 1 ∧ max = some 1 then e
  else .times min max greedy e

end Expr

end EdgeBundle.Pattern
