import EdgeBundle.Text.Width

/-!
# Edits

Spans of a source with the texts that take their place.
-/

namespace EdgeBundle

/-- A span of a source, in bytes, and its replacement. -/
structure Edit where
  /-- Byte offset of the span. -/
  start : Nat
  /-- Byte offset one past the span. -/
  stop : Nat
  /-- Text that takes the place of the span. -/
  replacement : String
  deriving DecidableEq, Repr

/-- Applies edits in order to the part of a source that starts at byte `offset`. What lies
between two spans stays as it is. -/
def Edit.applyFrom (offset : Nat) (cs : List Char) : List Edit → List Char
  | [] => cs
  | e :: es =>
    takeBytes (e.start - offset) cs ++ e.replacement.toList ++
      applyFrom e.stop (dropBytes (e.stop - offset) cs) es

/-- Applies edits in order to a source. -/
def Edit.apply (edits : List Edit) (src : List Char) : List Char :=
  applyFrom 0 src edits

end EdgeBundle
