/-!
# UTF-8 widths

Offsets into a source text are counted in bytes of its UTF-8 encoding, while the text itself is
handled as a list of characters. This module holds the measure that joins the two views, cuts
at byte offsets, and line numbers.
-/

namespace EdgeBundle

/-- Number of bytes that the characters take in UTF-8. -/
def utf8Width (cs : List Char) : Nat :=
  cs.foldr (fun c n => c.utf8Size + n) 0

@[simp]
theorem utf8Width_nil : utf8Width [] = 0 := rfl

@[simp]
theorem utf8Width_cons (c : Char) (cs : List Char) :
    utf8Width (c :: cs) = c.utf8Size + utf8Width cs := rfl

@[simp]
theorem utf8Width_append (as bs : List Char) :
    utf8Width (as ++ bs) = utf8Width as + utf8Width bs := by
  induction as with
  | nil => simp
  | cons c as ih => simp [ih, Nat.add_assoc]

/-- Number of leading characters whose first byte lies before byte `offset`. -/
def charsBefore (offset : Nat) (cs : List Char) : Nat :=
  go 0 offset cs
where
  /-- Counts on from `count` with `budget` bytes left before the offset. -/
  go (count budget : Nat) : List Char → Nat
    | [] => count
    | c :: cs => if budget = 0 then count else go (count + 1) (budget - c.utf8Size) cs

/-- The characters before byte `offset`. -/
def takeBytes (offset : Nat) (cs : List Char) : List Char :=
  cs.take (charsBefore offset cs)

/-- The characters from byte `offset` on. -/
def dropBytes (offset : Nat) (cs : List Char) : List Char :=
  cs.drop (charsBefore offset cs)

/-- Number, from one, of the line that holds byte `offset`. -/
def lineAt (src : List Char) (offset : Nat) : Nat :=
  (takeBytes offset src).count '\n' + 1

end EdgeBundle
