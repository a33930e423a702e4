import EdgeBundle.Pattern.Expr

/-!
# Expansion

The pattern of an expression. Counted repetitions become copies, and every place where matching
has a choice gets a mark of its own, so that no choice is tried twice at the same place. A search
then takes time in proportion to the text, and a repetition does not go round without moving.
-/

namespace EdgeBundle.Pattern

/-- Work that hands out marks; the state is the next one. -/
abbrev Marking := StateM Nat

/-- A mark that has not been used. -/
def freshMark : Marking Nat := modifyGet fun n => (n, n + 1)

/-- A pattern after a mark of its own. -/
def marked (p : Pattern) : Marking Pattern := do
  return .seq (.once (← freshMark)) p

/-- Copies of a pattern, each with marks of its own, before the ones in `acc`. -/
def copies (make : Marking Pattern) (acc : List Pattern) : Nat → Marking (List Pattern)
  | 0 => return acc
  | n + 1 => do copies make ((← make) :: acc) n

/-- A pattern once or more. -/
def onceOrMore (greedy : Bool) (p : Pattern) : Marking Pattern := do
  match p with
  | .one c => return .seq p (.many greedy c (some (← freshMark)))
  | _ => return .plus greedy (.seq p (.once (← freshMark)))

/-- A pattern any number of times, where each time takes up characters. -/
def anyTimes (greedy : Bool) (p : Pattern) : Marking Pattern := do
  let mark ← freshMark
  match p with
  | .one c => return .many greedy c (some mark)
  | _ => return .seq (.once mark) (.opt greedy (.plus greedy (.seq p (.once mark))))

/-- Patterns in sequence, the last one first, of which any number at the end may be left out; `acc`
is what follows them. -/
def leadingOf (greedy : Bool) (acc : Pattern) : List Pattern → Marking Pattern
  | [] => return acc
  | p :: ps => do leadingOf greedy (← marked (.opt greedy (.seq p acc))) ps

namespace Expr

/-- The pattern of an expression. -/
def expand : Expr → Marking Pattern
  | .empty => return .empty
  | .text cs => return .text cs
  | .one c => return .one c
  | .look l => return .look l
  | .seq a b => return .seq (← expand a) (← expand b)
  | .alt a b => do marked (.alt (← expand a) (← expand b))
  | .group index e => return .group index (← expand e)
  | .times least most greedy e => do
    let start ← copies (expand e) [] (if most.isNone then least - 1 else least)
    let rest ← match most with
      | none =>
        if least > 0 then onceOrMore greedy (← expand e)
        else if e.minSize.any (· > 0) then anyTimes greedy (← expand e)
        else marked (.opt greedy (← onceOrMore greedy (← expand e)))
      | some most => do leadingOf greedy .empty (← copies (expand e) [] (most - least))
    return start.foldl (fun rest p => .seq p rest) rest

/-- The pattern of an expression with marks from zero on. -/
def toPattern (e : Expr) : Pattern :=
  (e.expand 0).1

end Expr

end EdgeBundle.Pattern
