import EdgeBundle.Pattern.CharClass

/-!
# Tables of properties

How the tables of Unicode properties are written: lists of names, each with runs of code points in
numbers of base 36.
-/

namespace EdgeBundle.Unicode

/-- Values of a property, each with its names and its runs of code points. -/
abbrev Table := List (List String × List String)

/-- Value of a digit in base 36. -/
def digitValue (c : Char) : Nat :=
  if c.isDigit then c.toNat - 48 else c.toNat - 87

/-- Value of a number in base 36, with an optional minus sign. -/
def numberValue (cs : List Char) : Int :=
  let value (ds : List Char) : Nat := ds.foldl (fun n d => 36 * n + digitValue d) 0
  match cs with
  | '-' :: ds => -(value ds : Int)
  | ds => value ds

/-- Pieces of a text between occurrences of a character; `piece` is the one being read, reversed,
and `acc` holds the ones before it, reversed. -/
def pieces (sep : Char) (piece : List Char) (acc : List (List Char)) :
    List Char → List (List Char)
  | [] => (piece.reverse :: acc).reverse
  | c :: cs =>
    if c = sep then pieces sep [] (piece.reverse :: acc) cs
    else pieces sep (c :: piece) acc cs

/-- Entries of a line of a table. -/
def entries (line : String) : List (List Char) :=
  pieces ' ' [] [] line.toList

/-- Numbers of one entry. -/
def entryValues (entry : List Char) : List Int :=
  (pieces ':' [] [] entry).map numberValue

/-- Reads runs. An entry `gap` or `gap:more`, in base 36, leaves out `gap` code points after the run
before it and stands for the next one and `more` further ones. -/
def decodeRuns (lines : List String) : Runs :=
  let step (state : Nat × Runs) (entry : List Char) : Nat × Runs :=
    let (next, runs) := state
    match entryValues entry with
    | [gap] => (next + gap.toNat + 1, (next + gap.toNat, next + gap.toNat) :: runs)
    | [gap, more] =>
      let lo := next + gap.toNat
      (lo + more.toNat + 1, (lo, lo + more.toNat) :: runs)
    | _ => (next, runs)
  ((lines.flatMap entries).foldl step (0, [])).2.reverse

namespace Table

/-- The class of the value with the given name. -/
def find? (t : Table) (name : String) : Option CharClass :=
  (List.find? (fun entry => entry.1.contains name) t).map fun entry => ⟨decodeRuns entry.2⟩

/-- The class of the value with the given name; nothing if there is none. -/
def get (t : Table) (name : String) : CharClass :=
  (t.find? name).getD .none

/-- The union of the classes of the values with the given names. -/
def getAll (t : Table) (names : List String) : CharClass :=
  .unions (names.map t.get)

/-- The names of the value which the given one is a name of. -/
def names? (t : Table) (name : String) : Option (List String) :=
  (List.find? (fun entry => entry.1.contains name) t).map Prod.fst

end Table

end EdgeBundle.Unicode
