/-!
# Substrings

Searching in texts given as lists of characters.
-/

namespace EdgeBundle

/-- What follows `head` at the start of a text, if the text starts with it. -/
def dropHead? (head text : List Char) : Option (List Char) :=
  if head.isPrefixOf text then some (text.drop head.length) else none

/-- Whether `needle` occurs in a text. -/
def containsText (needle : List Char) : List Char → Bool
  | [] => needle.isEmpty
  | c :: cs => needle.isPrefixOf (c :: cs) || containsText needle cs

/-- What follows the last occurrence of `needle` in a text. -/
def afterLast? (needle : List Char) : List Char → Option (List Char)
  | [] => dropHead? needle []
  | c :: cs =>
    match afterLast? needle cs with
    | some rest => some rest
    | none => dropHead? needle (c :: cs)

/-- Replaces every occurrence of `needle`, found from left to right, by `by`. The pending count
skips the rest of an occurrence that has been replaced. -/
def replaceText (needle replacement : List Char) (cs : List Char) : List Char :=
  go 0 cs
where
  /-- Skips `pending` characters, then goes on replacing. -/
  go (pending : Nat) : List Char → List Char
    | [] => []
    | c :: cs =>
      match pending with
      | n + 1 => go n cs
      | 0 =>
        if needle.isPrefixOf (c :: cs) ∧ needle ≠ [] then
          replacement ++ go (needle.length - 1) cs
        else c :: go 0 cs

end EdgeBundle
