/-!
# Slash-separated segments

Splitting a text at its slashes and joining it again.
-/

namespace EdgeBundle

/-- The pieces of a text between its slashes; there is always at least one. -/
def segments : List Char → List (List Char)
  | [] => [[]]
  | c :: cs =>
    if c = '/' then [] :: segments cs
    else
      match segments cs with
      | [] => [[c]]
      | s :: ss => (c :: s) :: ss

/-- Pieces with a slash between any two. -/
def joinSegments : List (List Char) → List Char
  | [] => []
  | [s] => s
  | s :: ss => s ++ '/' :: joinSegments ss

theorem segments_ne_nil (cs : List Char) : segments cs ≠ [] := by
  cases cs with
  | nil => simp [segments]
  | cons c cs =>
    simp only [segments]
    split
    · simp
    · split <;> simp

theorem joinSegments_segments (cs : List Char) : joinSegments (segments cs) = cs := by
  induction cs with
  | nil => rfl
  | cons c cs ih =>
    simp only [segments]
    split
    next h =>
      cases hs : segments cs with
      | nil => exact absurd hs (segments_ne_nil cs)
      | cons s ss => rw [joinSegments, ← hs, ih, h]; simp; simp
    next h =>
      cases hs : segments cs with
      | nil => exact absurd hs (segments_ne_nil cs)
      | cons s ss =>
        rw [hs] at ih
        cases ss with
        | nil => simp_all [joinSegments]
        | cons t ts => simp_all [joinSegments]

/-- The last piece of a text. -/
def lastSegment (cs : List Char) : List Char :=
  (segments cs).getLastD []

/-- The text before its last slash, empty without one. -/
def beforeLastSegment (cs : List Char) : List Char :=
  joinSegments (segments cs).dropLast

end EdgeBundle
