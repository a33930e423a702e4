/-!
# Character classes

Sets of characters as ascending runs of code points. Every set has one such form, so two classes are
equal exactly if they hold the same characters.
-/

namespace EdgeBundle

/-- Runs of code points, ascending and apart, each by its ends. -/
abbrev Runs := List (Nat × Nat)

namespace Runs

/-- Whether a code point lies in ascending runs. -/
def contains : Runs → Nat → Bool
  | [], _ => false
  | (lo, hi) :: rest, n => if n < lo then false else n ≤ hi || contains rest n

/-- Joins runs that overlap or touch; their starts must ascend. -/
def join : Runs → Runs
  | [] => []
  | [r] => [r]
  | (lo, hi) :: (lo', hi') :: rest =>
    if lo' ≤ hi + 1 then join ((lo, max hi hi') :: rest)
    else (lo, hi) :: join ((lo', hi') :: rest)
  termination_by rs => rs.length

/-- The code points in either of two lists of runs. -/
def union (a b : Runs) : Runs :=
  join (a.merge b fun x y => x.1 ≤ y.1)

/-- The code points in both of two lists of runs. -/
def inter : Runs → Runs → Runs
  | [], _ => []
  | _, [] => []
  | (lo, hi) :: a, (lo', hi') :: b =>
    let rest := if hi < hi' then inter a ((lo', hi') :: b) else inter ((lo, hi) :: a) b
    if max lo lo' ≤ min hi hi' then (max lo lo', min hi hi') :: rest else rest
  termination_by a b => a.length + b.length

/-- The code points from `next` up to `last` that lie between the runs. -/
def gaps (last next : Nat) : Runs → Runs
  | [] => if next ≤ last then [(next, last)] else []
  | (lo, hi) :: rest =>
    if next < lo then (next, lo - 1) :: gaps last (hi + 1) rest else gaps last (hi + 1) rest

end Runs

/-- A set of characters. -/
structure CharClass where
  /-- Its characters, without surrogates. -/
  runs : Runs
  deriving DecidableEq, Repr

namespace CharClass

/-- Largest code point. -/
def maxCode : Nat := 0x10FFFF

/-- No character. -/
def none : CharClass := ⟨[]⟩

/-- Every character: the code points on both sides of the surrogates. -/
def any : CharClass := ⟨[(0, 0xD7FF), (0xE000, maxCode)]⟩

/-- The characters of a list, which must ascend without neighbours. -/
def ofChars (cs : List Char) : CharClass :=
  ⟨cs.map fun c => (c.toNat, c.toNat)⟩

/-- The characters between two. -/
def range (lo hi : Char) : CharClass :=
  ⟨Runs.inter any.runs [(lo.toNat, hi.toNat)]⟩

/-- One character. -/
def single (c : Char) : CharClass :=
  ⟨[(c.toNat, c.toNat)]⟩

/-- The ASCII characters of some runs. -/
def ascii (rs : Runs) : CharClass := ⟨rs⟩

/-- The characters of either set. -/
def union (a b : CharClass) : CharClass :=
  ⟨Runs.union a.runs b.runs⟩

/-- The characters of both sets. -/
def inter (a b : CharClass) : CharClass :=
  ⟨Runs.inter a.runs b.runs⟩

/-- All other characters. -/
def not (c : CharClass) : CharClass :=
  ⟨Runs.inter any.runs (Runs.gaps maxCode 0 c.runs)⟩

/-- The characters of the first set that are not in the second. -/
def diff (a b : CharClass) : CharClass :=
  a.inter b.not

/-- The characters in exactly one of two sets. -/
def symmDiff (a b : CharClass) : CharClass :=
  (a.diff b).union (b.diff a)

/-- The characters of any of some sets. -/
def unions (cs : List CharClass) : CharClass :=
  cs.foldl union none

/-- Whether a character is in the set. -/
def contains (c : CharClass) (ch : Char) : Bool :=
  c.runs.contains ch.toNat

/-- The only character of the set, if there is just one. -/
def single? (c : CharClass) : Option Char :=
  match c.runs with
  | [(lo, hi)] => if lo = hi then some (Char.ofNat lo) else Option.none
  | _ => Option.none

/-- Whether the set holds ASCII characters only. -/
def isAscii (c : CharClass) : Bool :=
  c.runs.all fun r => r.2 < 0x80

end CharClass

end EdgeBundle
