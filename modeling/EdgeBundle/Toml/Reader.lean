import EdgeBundle.Text.Hex

/-!
# Reading settings

A document of settings is a TOML document with keys and values at its top level, one to a line. A
value is a string in any of the four notations, or a truth value. Nothing else that TOML knows can
be a setting, so a document with tables, arrays, numbers or dates is refused like one that is no
TOML at all.
-/

namespace EdgeBundle.Toml

/-- Value of a setting. -/
inductive Value where
  /-- A string. -/
  | string (s : String)
  /-- A truth value. -/
  | bool (b : Bool)
  deriving DecidableEq, Repr

/-- Blanks inside a line. -/
def isBlank (c : Char) : Bool :=
  c == ' ' || c == '\t'

/-- The text after leading blanks of a line. -/
def skipBlanks (cs : List Char) : List Char :=
  cs.dropWhile isBlank

/-- Whether a character may stand in a comment or a string. Of the control characters only the tab
may. -/
def isPlain (c : Char) : Bool :=
  c == '\t' || (0x20 ≤ c.toNat && c.toNat != 0x7F)

/-- The text after a line break. -/
def afterBreak? : List Char → Option (List Char)
  | '\n' :: cs => some cs
  | '\r' :: '\n' :: cs => some cs
  | _ => none

/-- The text after the rest of a line: blanks and a comment, up to a line break or the end. -/
def endLine? (cs : List Char) : Option (List Char) :=
  let rest := match skipBlanks cs with
    | '#' :: cs => cs.dropWhile isPlain
    | cs => cs
  if rest.isEmpty then some [] else afterBreak? rest

/-! ## Strings -/

/-- Reads a number of hexadecimal digits after those that make up `n`. -/
def readHex? : Nat → Nat → List Char → Option (Nat × List Char)
  | 0, n, cs => some (n, cs)
  | _ + 1, _, [] => none
  | k + 1, n, c :: cs =>
    match hexValue? c with
    | some d => readHex? k (16 * n + d) cs
    | none => none

theorem readHex?_length {k n m : Nat} {cs rest : List Char}
    (h : readHex? k n cs = some (m, rest)) : rest.length ≤ cs.length := by
  induction cs generalizing k n with
  | nil => cases k <;> simp_all [readHex?]
  | cons c cs ih =>
    cases k with
    | zero => simp_all [readHex?]
    | succ k =>
      simp only [readHex?] at h
      split at h
      · exact Nat.le_succ_of_le (ih h)
      · simp at h

/-- Number of digits after the letter of a numeric escape. -/
def escapeDigits? : Char → Option Nat
  | 'x' => some 2
  | 'u' => some 4
  | 'U' => some 8
  | _ => none

/-- The character that an escape of one letter stands for. -/
def simpleEscape? : Char → Option Char
  | 'b' => some '\x08'
  | 't' => some '\t'
  | 'n' => some '\n'
  | 'f' => some '\x0c'
  | 'r' => some '\r'
  | 'e' => some '\x1b'
  | '"' => some '"'
  | '\\' => some '\\'
  | _ => none

/-- Reads an escape after its backslash. -/
def readEscape? : List Char → Option (Char × List Char)
  | [] => none
  | e :: cs =>
    match escapeDigits? e with
    | none => (simpleEscape? e).map fun c => (c, cs)
    | some count =>
      match readHex? count 0 cs with
      | none => none
      | some (n, rest) => (charOfNumber? n).map fun c => (c, rest)

theorem readEscape?_length {c : Char} {cs rest : List Char}
    (h : readEscape? cs = some (c, rest)) : rest.length < cs.length := by
  cases cs with
  | nil => simp [readEscape?] at h
  | cons e cs =>
    simp only [readEscape?] at h
    split at h
    · obtain ⟨_, _, h⟩ := Option.map_eq_some_iff.1 h
      simp_all
    · split at h
      · simp at h
      next hhex =>
        obtain ⟨_, _, h⟩ := Option.map_eq_some_iff.1 h
        simp only [Prod.mk.injEq] at h
        exact Nat.lt_succ_of_le (h.2 ▸ readHex?_length hhex)

/-- Reads a string on one line, up to and including its closing quote. Only between double quotes
there are escapes. `acc` holds the characters read so far, the latest first. -/
def readShort? (quote : Char) (acc cs : List Char) : Option (List Char × List Char) :=
  match cs with
  | [] => none
  | c :: cs =>
    if c = quote then some (acc.reverse, cs)
    else if c = '\\' ∧ quote = '"' then
      match _h : readEscape? cs with
      | some (e, rest) => readShort? quote (e :: acc) rest
      | none => none
    else if isPlain c then readShort? quote (c :: acc) cs
    else none
termination_by cs.length
decreasing_by
  · have := readEscape?_length _h
    simp only [List.length_cons]
    omega
  · simp

/-- Whether a character belongs to the white space that a continued line drops. -/
def isLineSpace (c : Char) : Bool :=
  isBlank c || c == '\n'

/-- The text after white space and line breaks. -/
def skipLines : List Char → List Char
  | '\r' :: '\n' :: cs => skipLines cs
  | c :: cs => if isLineSpace c then skipLines cs else c :: cs
  | [] => []

theorem skipLines_length (cs : List Char) : (skipLines cs).length ≤ cs.length := by
  fun_induction skipLines cs <;> simp_all <;> omega

/-- The text after a backslash that continues a line: blanks, a line break, and all white space that
follows. -/
def afterContinued? (cs : List Char) : Option (List Char) :=
  (afterBreak? (skipBlanks cs)).map skipLines

theorem afterBreak?_length {cs rest : List Char} (h : afterBreak? cs = some rest) :
    rest.length < cs.length := by
  unfold afterBreak? at h
  split at h
  · obtain rfl := Option.some.inj h
    simp only [List.length_cons]
    omega
  · obtain rfl := Option.some.inj h
    simp only [List.length_cons]
    omega
  · cases h

theorem afterContinued?_length {cs rest : List Char} (h : afterContinued? cs = some rest) :
    rest.length < cs.length := by
  obtain ⟨mid, hmid, rfl⟩ := Option.map_eq_some_iff.1 h
  have hskip : (skipBlanks cs).length ≤ cs.length := (List.dropWhile_suffix _).length_le
  have := afterBreak?_length hmid
  have := skipLines_length mid
  omega

/-- Reads a string over several lines, up to and including its three closing quotes. Up to two more
quotes before them belong to the string. -/
def readLong? (quote : Char) (acc cs : List Char) : Option (List Char × List Char) :=
  match cs with
  | [] => none
  | c :: cs =>
    if c = quote ∧ cs.take 2 = [quote, quote] then
      -- of five quotes the last three close the string
      let more := min 2 ((cs.drop 2).takeWhile (· == quote)).length
      some (acc.reverse ++ List.replicate more quote, cs.drop (2 + more))
    else if c = '\\' ∧ quote = '"' then
      match _h : afterContinued? cs with
      | some rest => readLong? quote acc rest
      | none =>
        match _h : readEscape? cs with
        | some (e, rest) => readLong? quote (e :: acc) rest
        | none => none
    else if isPlain c ∨ c = '\n' ∨ (c = '\r' ∧ cs.head? = some '\n') then
      readLong? quote (c :: acc) cs
    else none
termination_by cs.length
decreasing_by
  · have := afterContinued?_length _h
    simp only [List.length_cons]
    omega
  · have := readEscape?_length _h
    simp only [List.length_cons]
    omega
  · simp

/-- Reads a string in any notation. A line break right after three opening quotes does not count. -/
def readString? (cs : List Char) : Option (String × List Char) :=
  match cs with
  | quote :: cs =>
    if quote = '"' ∨ quote = '\'' then
      let read :=
        if cs.take 2 = [quote, quote] then
          let body := cs.drop 2
          readLong? quote [] ((afterBreak? body).getD body)
        else readShort? quote [] cs
      read.map fun (s, rest) => (String.ofList s, rest)
    else none
  | [] => none

/-! ## Documents -/

/-- Whether a character may stand in a key without quotes. -/
def isKeyChar (c : Char) : Bool :=
  c.isAlphanum || c == '_' || c == '-'

/-- Reads a key: a word, or a string on one line. -/
def readKey? (cs : List Char) : Option (String × List Char) :=
  match cs with
  | '"' :: rest => (readShort? '"' [] rest).map fun (s, rest) => (String.ofList s, rest)
  | '\'' :: rest => (readShort? '\'' [] rest).map fun (s, rest) => (String.ofList s, rest)
  | _ =>
    let word := cs.takeWhile isKeyChar
    if word.isEmpty then none else some (String.ofList word, cs.dropWhile isKeyChar)

/-- Reads the value of a setting. -/
def readValue? (cs : List Char) : Option (Value × List Char) :=
  match cs with
  | 't' :: 'r' :: 'u' :: 'e' :: rest => some (.bool true, rest)
  | 'f' :: 'a' :: 'l' :: 's' :: 'e' :: rest => some (.bool false, rest)
  | _ => (readString? cs).map fun (s, rest) => (.string s, rest)

/-- Reads one setting and the rest of its line. -/
def readSetting (cs : List Char) : Except String ((String × Value) × List Char) :=
  match readKey? cs with
  | none => .error "expected a key"
  | some (key, rest) =>
    match skipBlanks rest with
    | '=' :: rest =>
      match readValue? (skipBlanks rest) with
      | none => .error s!"expected a string or a truth value for {key}"
      | some (value, rest) =>
        match endLine? rest with
        | none => .error s!"expected the end of the line after the value of {key}"
        | some rest => .ok ((key, value), rest)
    | _ => .error s!"expected = after {key}"

/-- Reads the settings of a text in order. Every line takes at least one character, so `fuel` above
the length of the text is enough. -/
def readSettings (fuel : Nat) (cs : List Char) : Except String (List (String × Value)) :=
  match fuel with
  | 0 => .ok []
  | fuel + 1 =>
    if cs.isEmpty then .ok []
    else
      -- a line without a setting
      match endLine? cs with
      | some rest => readSettings fuel rest
      | none => do
        let (setting, rest) ← readSetting (skipBlanks cs)
        let later ← readSettings fuel rest
        return setting :: later

/-- The settings of a document. A byte order mark at the start does not count. -/
def settings (text : String) : Except String (List (String × Value)) :=
  let cs := match text.toList with
    | '\uFEFF' :: cs => cs
    | cs => cs
  readSettings (cs.length + 1) cs

end EdgeBundle.Toml
