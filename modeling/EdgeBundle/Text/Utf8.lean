/-!
# UTF-8

The bytes of a text and the text of bytes. Bytes that are no UTF-8 still have a lossy text, where a
replacement character stands for every longest piece that could have started a character.
-/

namespace EdgeBundle.Utf8

/-- Bytes of a text. -/
def encode (s : String) : List UInt8 :=
  s.toList.flatMap String.utf8EncodeChar

/-- Whether a byte goes on with a character. -/
def isContinuation (b : UInt8) : Bool :=
  0x80 ≤ b && b ≤ 0xBF

/-- What the first byte of a longer character says: the number of bytes that follow, the least and
the greatest second byte, and the bits it brings. -/
def lead? (b : UInt8) : Option (Nat × UInt8 × UInt8 × Nat) :=
  if 0xC2 ≤ b ∧ b ≤ 0xDF then some (1, 0x80, 0xBF, b.toNat - 0xC0)
  else if b = 0xE0 then some (2, 0xA0, 0xBF, 0)
  else if b = 0xED then some (2, 0x80, 0x9F, 0xD)
  else if 0xE1 ≤ b ∧ b ≤ 0xEF then some (2, 0x80, 0xBF, b.toNat - 0xE0)
  else if b = 0xF0 then some (3, 0x90, 0xBF, 0)
  else if 0xF1 ≤ b ∧ b ≤ 0xF3 then some (3, 0x80, 0xBF, b.toNat - 0xF0)
  else if b = 0xF4 then some (3, 0x80, 0x8F, 4)
  else none

/-- Reads the bytes that follow the second one of a character, as far as they go on with it. -/
def readRest : Nat → Nat → List UInt8 → Option Char × List UInt8
  | 0, value, bytes => (some (Char.ofNat value), bytes)
  | _ + 1, _, [] => (none, [])
  | count + 1, value, b :: bytes =>
    if isContinuation b then readRest count (64 * value + (b.toNat - 0x80)) bytes
    else (none, b :: bytes)

/-- Reads a character after its first byte. Without a character, what it could have been is
skipped. -/
def readChar (first : UInt8) (bytes : List UInt8) : Option Char × List UInt8 :=
  if first < 0x80 then (some (Char.ofNat first.toNat), bytes)
  else
    match lead? first, bytes with
    | some (count, least, greatest, value), b :: rest =>
      if least ≤ b ∧ b ≤ greatest then
        readRest (count - 1) (64 * value + (b.toNat - 0x80)) rest
      else (none, bytes)
    | _, _ => (none, bytes)

theorem readRest_length (count value : Nat) (bytes : List UInt8) :
    (readRest count value bytes).2.length ≤ bytes.length := by
  induction bytes generalizing count value with
  | nil => cases count <;> simp [readRest]
  | cons b bytes ih =>
    cases count with
    | zero => simp [readRest]
    | succ count =>
      simp only [readRest]
      split
      · exact Nat.le_succ_of_le (ih _ _)
      · simp

theorem readChar_length (first : UInt8) (bytes : List UInt8) :
    (readChar first bytes).2.length ≤ bytes.length := by
  unfold readChar
  split
  · simp
  · split
    · split
      · exact Nat.le_succ_of_le (readRest_length _ _ _)
      · simp
    · simp

/-- The characters of bytes, with nothing in the place of each piece that is none. -/
def pieces : List UInt8 → List (Option Char)
  | [] => []
  | first :: bytes => (readChar first bytes).1 :: pieces (readChar first bytes).2
termination_by bytes => bytes.length
decreasing_by exact Nat.lt_succ_of_le (readChar_length _ _)

/-- The text of bytes that are UTF-8. -/
def decode? (bytes : List UInt8) : Option String :=
  ((pieces bytes).mapM id).map String.ofList

/-- The character that stands for what is none. -/
def replacement : Char := '\uFFFD'

/-- The text of any bytes. -/
def decodeLossy (bytes : List UInt8) : String :=
  String.ofList ((pieces bytes).map fun c => c.getD replacement)

end EdgeBundle.Utf8
