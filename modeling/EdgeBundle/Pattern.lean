import Std.Data.HashSet
import EdgeBundle.Pattern.CharClass

/-!
# Patterns

Regular expressions with groups. A match starts as far to the left as it can; where a pattern can
match in several ways there, the first alternative that leads to a match counts, and a repetition
prefers to go on, or to stop if it is lazy. Marks in a pattern keep a search from coming to the same
choice at the same place twice.
-/

namespace EdgeBundle

/-- A place in a text. -/
structure Cursor where
  /-- Character before the place. -/
  prev : Option Char
  /-- Number of characters before the place. -/
  pos : Nat
  /-- Characters from the place on. -/
  rest : List Char
  deriving DecidableEq, Repr

namespace Cursor

/-- The start of a text. -/
def start (text : List Char) : Cursor := ⟨none, 0, text⟩

/-- The place after the next `n` characters. -/
def skip (n : Nat) (s : Cursor) : Cursor :=
  match n with
  | 0 => s
  | n + 1 =>
    match s.rest with
    | [] => s
    | c :: cs => skip n ⟨some c, s.pos + 1, cs⟩

end Cursor

/-- How a place lies to words. -/
inductive WordEdge where
  /-- A word starts or ends here. -/
  | boundary
  /-- No word starts or ends here. -/
  | inside
  /-- A word starts here. -/
  | start
  /-- A word ends here. -/
  | stop
  /-- No word character stands before the place. -/
  | noneBefore
  /-- No word character stands after the place. -/
  | noneAfter
  deriving DecidableEq, Repr

/-- A condition on a place. -/
inductive Look where
  /-- Start of the text. -/
  | textStart
  /-- End of the text. -/
  | textEnd
  /-- Start of a line. -/
  | lineStart
  /-- End of a line. -/
  | lineEnd
  /-- Start of a line where a carriage return, a newline or the two together end lines. -/
  | lineStartCR
  /-- End of a line where a carriage return, a newline or the two together end lines. -/
  | lineEndCR
  /-- Relation to words of the given characters. -/
  | word (edge : WordEdge) (chars : CharClass)
  deriving DecidableEq, Repr

namespace Look

/-- Whether the condition holds at a place. -/
def holds (l : Look) (s : Cursor) : Bool :=
  let next := s.rest.head?
  match l with
  | textStart => s.prev.isNone
  | textEnd => next.isNone
  | lineStart => s.prev.isNone || s.prev == some '\n'
  | lineEnd => next.isNone || next == some '\n'
  | lineStartCR =>
    s.prev.isNone || s.prev == some '\n' || (s.prev == some '\r' && next != some '\n')
  | lineEndCR =>
    next.isNone || next == some '\r' || (next == some '\n' && s.prev != some '\r')
  | word edge chars =>
    let before := s.prev.any chars.contains
    let after := next.any chars.contains
    match edge with
    | .boundary => before != after
    | .inside => before == after
    | .start => !before && after
    | .stop => before && !after
    | .noneBefore => !before
    | .noneAfter => !after

end Look

/-- A regular expression. -/
inductive Pattern where
  /-- The empty text. -/
  | empty
  /-- A given text. -/
  | text (cs : List Char)
  /-- One character of a class. -/
  | one (c : CharClass)
  /-- Any number of characters of a class. Under a mark, no place is passed twice. -/
  | many (greedy : Bool) (c : CharClass) (mark : Option Nat := none)
  /-- The empty text where a condition holds. -/
  | look (l : Look)
  /-- Two patterns in sequence. -/
  | seq (a b : Pattern)
  /-- The first pattern or else the second. -/
  | alt (a b : Pattern)
  /-- The pattern or else the empty text; the other way round if lazy. -/
  | opt (greedy : Bool) (p : Pattern)
  /-- The pattern once or more. -/
  | plus (greedy : Bool) (p : Pattern)
  /-- A pattern whose match is remembered under a number. -/
  | group (index : Nat) (p : Pattern)
  /-- The empty text, but only once at every place. -/
  | once (mark : Nat)
  deriving DecidableEq, Repr

/-- Number, start and end of each remembered match, the latest first. -/
abbrev Groups := List (Nat × Nat × Nat)

/-- A match in a text, by places counted in characters. -/
structure Match where
  /-- Place where it starts. -/
  start : Nat
  /-- Place where it ends. -/
  stop : Nat
  /-- Remembered matches of groups. -/
  groups : Groups
  deriving DecidableEq, Repr

/-- The marks that have been passed, each with the place. What follows a mark depends on the place
alone, so a second way to the same mark and place can only fail as the first one did, or go round in
a circle. -/
abbrev Visits := Std.HashSet (Nat × Nat)

/-- Passes a mark at a place; tells whether that was the first time. -/
def Visits.pass (mark : Option Nat) (pos : Nat) (v : Visits) : Bool × Visits :=
  match mark with
  | none => (true, v)
  | some m =>
    let (seen, v) := v.containsThenInsert (m, pos)
    (!seen, v)

/-- An attempt to match: an answer, if there is one, and the marks passed by then. -/
abbrev Trial (α : Type) := Visits → Option α × Visits

namespace Trial

/-- The attempt that fails. -/
def fail (v : Visits) : Option α × Visits := (none, v)

/-- An attempt and, if it fails, another one. -/
def orElse (a b : Trial α) (v : Visits) : Option α × Visits :=
  match a v with
  | (some x, v) => (some x, v)
  | (none, v) => b v

/-- The two attempts in this order if `greedy`, else in the other. -/
def prefer (greedy : Bool) (a b : Trial α) (v : Visits) : Option α × Visits :=
  if greedy then orElse a b v else orElse b a v

/-- The first attempt over some places that succeeds. -/
def firstOf (k : Cursor → Trial α) (places : List Cursor) (v : Visits) : Option α × Visits :=
  match places with
  | [] => fail v
  | s :: places => orElse (k s) (firstOf k places) v

/-- Passes a mark, then makes an attempt; fails where the mark has been passed before. -/
def after (mark : Option Nat) (pos : Nat) (a : Trial α) (v : Visits) : Option α × Visits :=
  match v.pass mark pos with
  | (true, v) => a v
  | (false, v) => fail v

end Trial

namespace Pattern

/-- Patterns in sequence. -/
def concat (ps : List Pattern) : Pattern :=
  match ps with
  | [] => .empty
  | [p] => p
  | p :: ps => .seq p (concat ps)

/-- The places that are reached over characters of a class, the farthest first, and the marks
passed. -/
def reach (c : CharClass) (mark : Option Nat) (acc : List Cursor) (prev : Option Char) (pos : Nat)
    (rest : List Char) (v : Visits) : List Cursor × Visits :=
  match v.pass mark pos with
  | (false, v) => (acc, v)
  | (true, v) =>
    let acc := ⟨prev, pos, rest⟩ :: acc
    match rest with
    | [] => (acc, v)
    | ch :: cs => if c.contains ch then reach c mark acc (some ch) (pos + 1) cs v else (acc, v)

/-- The first answer of `k` over the places that are reached over characters of a class, the
nearest first. -/
def reachLazily (c : CharClass) (mark : Option Nat) (k : Cursor → Trial α) (prev : Option Char)
    (pos : Nat) (rest : List Char) (v : Visits) : Option α × Visits :=
  match rest with
  | [] => Trial.after mark pos (k ⟨prev, pos, []⟩) v
  | ch :: cs =>
    Trial.after mark pos
      (Trial.orElse (k ⟨prev, pos, ch :: cs⟩)
        (if c.contains ch then reachLazily c mark k (some ch) (pos + 1) cs else Trial.fail)) v

/-- Takes one or more steps, then goes on with `k`. A step that does not move is the last one. -/
def repeatStep (greedy : Bool)
    (step : Cursor → Groups → (Cursor → Groups → Trial α) → Trial α)
    (k : Cursor → Groups → Trial α) (s : Cursor) (g : Groups) (v : Visits) : Option α × Visits :=
  step s g (fun t g v =>
    -- a step over no characters could be repeated for ever
    if t.rest.length < s.rest.length then
      Trial.prefer greedy (repeatStep greedy step k t g) (k t g) v
    else k t g v) v
  termination_by s.rest.length

/-- Matches a pattern at a place and goes on with `k` at the place after it. Ways to match are tried
in order until `k` gives an answer. -/
def run (p : Pattern) (s : Cursor) (g : Groups) (k : Cursor → Groups → Trial α) (v : Visits) :
    Option α × Visits :=
  match p with
  | .empty => k s g v
  | .text cs => if cs.isPrefixOf s.rest then k (s.skip cs.length) g v else Trial.fail v
  | .one c =>
    match s.rest with
    | [] => Trial.fail v
    | ch :: cs => if c.contains ch then k ⟨some ch, s.pos + 1, cs⟩ g v else Trial.fail v
  | .many greedy c mark =>
    if greedy then
      let (places, v) := reach c mark [] s.prev s.pos s.rest v
      Trial.firstOf (fun t v => k t g v) places v
    else reachLazily c mark (fun t v => k t g v) s.prev s.pos s.rest v
  | .look l => if l.holds s then k s g v else Trial.fail v
  | .seq a b => run a s g (fun t g v => run b t g k v) v
  | .alt a b => Trial.orElse (run a s g k) (run b s g k) v
  | .opt greedy p => Trial.prefer greedy (run p s g k) (k s g) v
  | .plus greedy p => repeatStep greedy (fun t g k v => run p t g k v) k s g v
  | .group index p => run p s g (fun t g v => k t ((index, s.pos, t.pos) :: g) v) v
  | .once mark => Trial.after (some mark) s.pos (k s g) v

/-- The match that starts at a place. -/
def matchAt (p : Pattern) (s : Cursor) (v : Visits) : Option Match × Visits :=
  run p s [] (fun t g v => (some ⟨s.pos, t.pos, g⟩, v)) v

/-- The first match at or after a place. -/
def findFrom (p : Pattern) (prev : Option Char) (pos : Nat) : List Char → Visits → Option Match
  | [], v => (p.matchAt ⟨prev, pos, []⟩ v).1
  | c :: cs, v =>
    match p.matchAt ⟨prev, pos, c :: cs⟩ v with
    | (some m, _) => some m
    | (none, v) => findFrom p (some c) (pos + 1) cs v

/-- The first match in a text. -/
def find? (p : Pattern) (text : List Char) : Option Match :=
  p.findFrom none 0 text ∅

/-- All matches from a place on, each starting no earlier than the one before it ends; `acc` holds
those before the place, reversed, and `v` the marks passed since the latest. The place lies inside a
match for `inside` more characters. An empty match does not count where another match has just
ended, which is `barred`. -/
def findAllFrom (p : Pattern) (acc : List Match) (inside : Nat) (barred : Bool)
    (prev : Option Char) (pos : Nat) : List Char → Visits → List Match
  | [], v =>
    match (p.matchAt ⟨prev, pos, []⟩ v).1 with
    | some m => if barred then acc.reverse else (m :: acc).reverse
    | none => acc.reverse
  | c :: cs, v =>
    match inside with
    | n + 1 => findAllFrom p acc n (n == 0) (some c) (pos + 1) cs v
    | 0 =>
      match p.matchAt ⟨prev, pos, c :: cs⟩ v with
      | (none, v) => findAllFrom p acc 0 false (some c) (pos + 1) cs v
      | (some m, _) =>
        let size := m.stop - m.start
        match size with
        | 0 => findAllFrom p (if barred then acc else m :: acc) 0 false (some c) (pos + 1) cs ∅
        | n + 1 => findAllFrom p (m :: acc) n (n == 0) (some c) (pos + 1) cs ∅

/-- All matches in a text that do not overlap, from left to right. -/
def findAll (p : Pattern) (text : List Char) : List Match :=
  p.findAllFrom [] 0 false none 0 text ∅

end Pattern

namespace Match

/-- The part of a text between two places. -/
def slice (text : List Char) (start stop : Nat) : List Char :=
  (text.drop start).take (stop - start)

/-- What a group matched, empty if it took no part; number zero is the whole match. -/
def group (m : Match) (text : List Char) (index : Nat) : List Char :=
  if index = 0 then slice text m.start m.stop
  else
    match m.groups.lookup index with
    | some (start, stop) => slice text start stop
    | none => []

/-- A text with the places of matches, which must ascend, replaced; the text given starts at place
`pos`. -/
def splice (replacement : Match → List Char) (pos : Nat) (text : List Char) :
    List Match → List Char
  | [] => text
  | m :: ms =>
    text.take (m.start - pos) ++ replacement m ++
      splice replacement m.stop (text.drop (m.stop - pos)) ms

end Match

end EdgeBundle
