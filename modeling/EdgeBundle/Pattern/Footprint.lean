import EdgeBundle.Pattern.Expr

/-!
# Footprint of patterns

How much memory an automaton over UTF-8 takes that matches an expression, forwards or backwards.
Counted repetitions multiply it, so a short text can ask for a huge automaton; a pattern beyond the
limit is refused.
-/

namespace EdgeBundle.Pattern

/-- Bytes, each from a range, that make up a character. -/
abbrev ByteRanges := List (Nat × Nat)

/-! ## Classes as ranges of bytes -/

/-- Splits a run of code points where a block of the given size starts or ends: an incomplete block
at either end stands alone. -/
def splitBlocks (size : Nat) (run : Nat × Nat) : Runs :=
  let (lo, hi) := run
  if lo / size = hi / size then [run]
  else
    let first := (lo + size - 1) / size * size
    let last := (hi + 1) / size * size
    (if lo < first then [(lo, first - 1)] else []) ++
      (if first < last then [(first, last - 1)] else []) ++
      (if last ≤ hi then [(last, hi)] else [])

/-- Bytes of a code point. -/
def codeBytes (n : Nat) : List Nat :=
  (String.utf8EncodeChar (Char.ofNat n)).map UInt8.toNat

/-- The characters of a class by their ranges of bytes, in ascending order. -/
def byteRanges (c : CharClass) : List ByteRanges :=
  let ofSize (run : Nat × Nat) : Runs :=
    if run.2 < 0x80 then [run]
    else ((splitBlocks 64 run).flatMap (splitBlocks 4096)).flatMap (splitBlocks 262144)
  let sizes : Runs := [(0, 0x7F), (0x80, 0x7FF), (0x800, 0xFFFF), (0x10000, CharClass.maxCode)]
  c.runs.flatMap fun run =>
    ((sizes.flatMap fun size => Runs.inter [run] [size]).flatMap ofSize).map fun piece =>
      (codeBytes piece.1).zip (codeBytes piece.2)

/-- What may follow the first byte of some characters, for each range of it. -/
def followers (chars : List ByteRanges) : List (List ByteRanges) :=
  let step (char : ByteRanges) (groups : List ((Nat × Nat) × List ByteRanges)) :
      List ((Nat × Nat) × List ByteRanges) :=
    match char, groups with
    | [], groups => groups
    | r :: rest, (r', chars) :: groups =>
      if r = r' then (r, rest :: chars) :: groups else (r, [rest]) :: (r', chars) :: groups
    | r :: rest, [] => [(r, [rest])]
  (chars.foldr step []).map Prod.snd

/-- Length of what two characters start with. -/
def sharedLength : ByteRanges → ByteRanges → Nat
  | a :: as, b :: bs => if a = b then sharedLength as bs + 1 else 0
  | _, _ => 0

/-! ## Memory -/

/-- Bytes of one state. -/
def stateSize : Nat := 32

/-- Bytes of one way from a state on a range of bytes. -/
def transitionSize : Nat := 8

/-- Bytes of one way from a state without a byte. -/
def branchSize : Nat := 4

/-- Memory of a state with a choice between two ways. -/
def forkSize : Nat := stateSize + 2 * branchSize

/-- Memory of a class that is matched forwards, where characters share their ends: a state for every
different rest of characters. -/
def forwardClassSize (c : CharClass) : Nat :=
  let start := byteRanges c
  let second := followers start
  let third := second.flatMap followers
  let fourth := third.flatMap followers
  let states : Std.HashSet (List ByteRanges) := .ofList (start :: (second ++ third ++ fourth))
  states.fold (fun n chars =>
    match (followers chars).length with
    | 0 => n
    | ways => n + stateSize + transitionSize * ways) stateSize

/-- Memory of a class that is matched backwards, where characters share their starts. -/
def backwardClassSize (c : CharClass) : Nat :=
  let step (state : Nat × ByteRanges) (char : ByteRanges) : Nat × ByteRanges :=
    let (size, last) := state
    (size + branchSize + stateSize * (char.length - sharedLength last char), char)
  ((byteRanges c).foldl step (2 * stateSize, [])).1

/-- Memory of a class. -/
def classSize (backward : Bool) (c : CharClass) : Nat :=
  if c.isAscii then 2 * stateSize + transitionSize * c.runs.length
  else if backward then backwardClassSize c
  else forwardClassSize c

namespace Expr

/-- Memory of an expression. Only what matches forwards remembers groups. -/
def footprint (backward : Bool) : Expr → Nat
  | .empty | .look _ => stateSize
  | .text cs => stateSize * textSize cs
  | .one c => classSize backward c
  | .seq a b => footprint backward a + footprint backward b
  | .alt a b =>
    let rest := match b with
      | .alt .. => footprint backward b
      | _ => footprint backward b + branchSize + 2 * stateSize
    footprint backward a + branchSize + rest
  | .group _ e => footprint backward e + if backward then 0 else 2 * stateSize
  | .times least most _ e =>
    let size := footprint backward e
    match most with
    | none =>
      if least > 0 then least * size + forkSize
      else if e.minSize.any (· > 0) then size + forkSize
      else size + 2 * forkSize + stateSize
    | some most =>
      if most ≤ least then least * size
      else
        -- no copy at all is an empty one, unless there is just one to leave out
        let copies := if least = 0 ∧ most > 1 then stateSize else least * size
        copies + stateSize + (most - least) * (forkSize + size)

/-- Memory of the automaton around an expression: the search for a start, the group of the whole
match and its end. -/
def frameSize (backward : Bool) : Nat :=
  let search := forkSize + 2 * stateSize + transitionSize
  search + stateSize + if backward then 0 else 2 * stateSize

/-- Most memory that an automaton may take. -/
def footprintLimit : Nat := 10 * 1024 * 1024

/-- Whether the automata of an expression stay within the limit. -/
def isWithinLimit (e : Expr) : Bool :=
  [false, true].all fun backward =>
    e.footprint backward + frameSize backward ≤ footprintLimit

end Expr

end EdgeBundle.Pattern
