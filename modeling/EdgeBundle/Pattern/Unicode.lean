import EdgeBundle.Pattern.Unicode.Age
import EdgeBundle.Pattern.Unicode.Break
import EdgeBundle.Pattern.Unicode.Category
import EdgeBundle.Pattern.Unicode.Folding
import EdgeBundle.Pattern.Unicode.Property
import EdgeBundle.Pattern.Unicode.Script

/-!
# Unicode classes

Character classes by the names of Unicode properties and of their values, and the classes of digits,
blanks and word characters. Properties that follow from others are derived here as the standard
defines them.
-/

namespace EdgeBundle.Unicode

/-! ## Letter case -/

/-- Characters that have another folded form, with that form. -/
def foldingPairs : List (Nat × Nat) :=
  let step (state : Nat × List (Nat × Nat)) (entry : List Char) : Nat × List (Nat × Nat) :=
    let (last, pairs) := state
    match entryValues entry with
    | [gap, more, by_, delta] =>
      let start := last + gap.toNat
      let run := (List.range (more.toNat + 1)).map fun i =>
        let n := start + i * by_.toNat
        (n, ((n : Int) + delta).toNat)
      (start, run.reverse ++ pairs)
    | _ => (last, pairs)
  ((foldings.flatMap entries).foldl step (0, [])).2.reverse

/-- A set of code points, from a list in any order. -/
def ofCodes (ns : List Nat) : CharClass :=
  ⟨Runs.join ((ns.mergeSort).map fun n => (n, n))⟩

/-- The class with all characters that differ from one of its own in case only. -/
def foldCase (c : CharClass) : CharClass :=
  let hit := foldingPairs.filter fun p => c.runs.contains p.1 || c.runs.contains p.2
  let forms := ofCodes (hit.map Prod.snd)
  let mates := foldingPairs.filter fun p => forms.runs.contains p.2
  c.union ((ofCodes (mates.map Prod.fst)).union forms)

/-- The class with the other case of its ASCII letters. -/
def foldAscii (c : CharClass) : CharClass :=
  let other (lo hi : Nat) (shift : Int) : CharClass :=
    ⟨(Runs.inter c.runs [(lo, hi)]).map fun r =>
      (((r.1 : Int) + shift).toNat, ((r.2 : Int) + shift).toNat)⟩
  c.union ((other 65 90 32).union (other 97 122 (-32)))

/-! ## General categories -/

/-- Groups of general categories with their names, and the short names of their members. -/
def categoryGroups : List (List String × List String) :=
  [(["l", "letter"], ["lu", "ll", "lt", "lm", "lo"]),
    (["lc", "casedletter"], ["lu", "ll", "lt"]),
    (["m", "mark", "combiningmark"], ["mn", "mc", "me"]),
    (["n", "number"], ["nd", "nl", "no"]),
    (["p", "punctuation", "punct"], ["pc", "pd", "ps", "pe", "pi", "pf", "po"]),
    (["s", "symbol"], ["sm", "sc", "sk", "so"]),
    (["z", "separator"], ["zs", "zl", "zp"])]

/-- Every character with a category. -/
def assigned : CharClass :=
  categories.getAll (categories.filterMap fun entry => entry.1.head?)

/-- The general category, or group of them, with the given name. -/
def category? (name : String) : Option CharClass :=
  match categories.find? name with
  | some c => some c
  | none =>
    match categoryGroups.find? fun g => g.1.contains name with
    | some (_, members) => some (categories.getAll members)
    | none =>
      match name with
      | "any" => some .any
      | "ascii" => some (.ascii [(0, 0x7F)])
      | "assigned" => some assigned
      | "cn" | "unassigned" => some assigned.not
      | "c" | "other" => some ((categories.getAll ["cc", "cf", "co"]).union assigned.not)
      | _ => none

/-- Letters. -/
def letters : CharClass := categories.getAll ["lu", "ll", "lt", "lm", "lo"]

/-! ## Binary properties -/

/-- Lower-case characters. -/
def lowercase : CharClass :=
  (categories.get "ll").union (properties.get "otherlowercase")

/-- Upper-case characters. -/
def uppercase : CharClass :=
  (categories.get "lu").union (properties.get "otheruppercase")

/-- Characters of words in the widest sense. -/
def alphabetic : CharClass :=
  .unions [letters, categories.get "nl", properties.get "otheralphabetic"]

/-- Characters that belong to the character before them. -/
def graphemeExtend : CharClass :=
  .unions [categories.getAll ["me", "mn"], properties.get "othergraphemeextend"]

/-- Characters for the syntax of patterns, and their blanks. -/
def patternReserved : CharClass :=
  (properties.get "patternsyntax").union (properties.get "patternwhitespace")

/-- Characters that start an identifier. -/
def idStart : CharClass :=
  (CharClass.unions [letters, categories.get "nl", properties.get "otheridstart"]).diff
    patternReserved

/-- Characters that continue an identifier. -/
def idContinue : CharClass :=
  (CharClass.unions [idStart, categories.getAll ["mn", "mc", "nd", "pc"],
    properties.get "otheridcontinue"]).diff patternReserved

/-- Characters of identifiers whose compatible forms are none. -/
def idUnstable : CharClass :=
  .ascii [(0x37A, 0x37A), (0x309B, 0x309C), (0xFC5E, 0xFC63), (0xFDFA, 0xFDFB), (0xFE70, 0xFE70),
    (0xFE72, 0xFE72), (0xFE74, 0xFE74), (0xFE76, 0xFE76), (0xFE78, 0xFE78), (0xFE7A, 0xFE7A),
    (0xFE7C, 0xFE7C), (0xFE7E, 0xFE7E)]

/-- Characters that start an identifier of which the compatible form does not. -/
def idStartUnstable : CharClass :=
  .ascii [(0xE33, 0xE33), (0xEB3, 0xEB3), (0xFF9E, 0xFF9F)]

/-- Characters that letter case ignores. -/
def caseIgnorable : CharClass :=
  .unions [categories.getAll ["mn", "me", "cf", "lm", "sk"],
    wordBreaks.getAll ["midletter", "midnumlet", "singlequote"]]

/-- Characters that are not shown where they are not supported. -/
def defaultIgnorable : CharClass :=
  (CharClass.unions [properties.get "otherdefaultignorablecodepoint", categories.get "cf",
    properties.get "variationselector"]).diff
    (.unions [properties.get "whitespace", properties.get "prependedconcatenationmark",
      .ascii [(0xFFF9, 0xFFFB), (0x13430, 0x13440)]])

/-- Characters that stand for themselves in the text. -/
def graphemeBase : CharClass :=
  (assigned.diff (categories.getAll ["cc", "cf", "co", "zl", "zp"])).diff graphemeExtend

/-- The binary property with the given name. -/
def binary? (name : String) : Option CharClass :=
  match name with
  | "lower" | "lowercase" => some lowercase
  | "upper" | "uppercase" => some uppercase
  | "cased" => some (.unions [lowercase, uppercase, categories.get "lt"])
  | "ci" | "caseignorable" => some caseIgnorable
  | "cwcm" | "changeswhencasemapped" =>
    some (properties.getAll ["changeswhenlowercased", "changeswhenuppercased",
      "changeswhentitlecased"])
  | "alpha" | "alphabetic" => some alphabetic
  | "math" => some ((categories.get "sm").union (properties.get "othermath"))
  | "grbase" | "graphemebase" => some graphemeBase
  | "grext" | "graphemeextend" => some graphemeExtend
  | "ids" | "idstart" => some idStart
  | "idc" | "idcontinue" => some idContinue
  | "xids" | "xidstart" => some ((idStart.diff idUnstable).diff idStartUnstable)
  | "xidc" | "xidcontinue" => some (idContinue.diff idUnstable)
  | "di" | "defaultignorablecodepoint" => some defaultIgnorable
  | _ => properties.find? name

/-! ## Properties with other values -/

/-- The script with the given name. -/
def script? (name : String) : Option CharClass :=
  scripts.find? name

/-- The characters that are used in the script with the given name. Characters without a script of
their own count where they are used. -/
def scriptExtension? (name : String) : Option CharClass := do
  let names ← scripts.names? name
  let own ← scripts.find? name
  if names.contains "zyyy" || names.contains "zinh" then
    return own.diff (.unions (borrowed.map fun entry => ⟨decodeRuns entry.2⟩))
  else
    return own.union (.unions (names.map borrowed.get))

/-- The characters that the version of Unicode with the given name assigns. -/
def age? (name : String) : Option CharClass :=
  if (ages.find? name).isSome then
    let older := ages.takeWhile fun entry => !entry.1.contains name
    some (.unions ((ages.take (older.length + 1)).map fun entry => ⟨decodeRuns entry.2⟩))
  else none

/-- The class with the given name for the division into user characters. -/
def graphemeBreak? (name : String) : Option CharClass :=
  match name with
  | "ex" | "extend" => some (graphemeExtend.union (properties.get "emojimodifier"))
  | _ => graphemeBreaks.find? name

/-- Number signs that enclose the digits after them. -/
def enclosingSigns : CharClass :=
  .ascii [(0x600, 0x605), (0x6DD, 0x6DD), (0x890, 0x891), (0x8E2, 0x8E2), (0x110BD, 0x110BD),
    (0x110CD, 0x110CD)]

/-- Numbers in words. -/
def wordNumeric : CharClass :=
  .unions [categories.get "nd", enclosingSigns, .ascii [(0x66B, 0x66B), (0x19DA, 0x19DA)]]

/-- The class with the given name for the division into words. -/
def wordBreak? (name : String) : Option CharClass :=
  match name with
  | "extend" =>
    some (.unions [graphemeExtend, categories.get "mc", properties.get "emojimodifier"])
  | "nu" | "numeric" => some wordNumeric
  | _ => wordBreaks.find? name

/-- Characters that extend the one before them in sentences. -/
def sentenceExtend : CharClass :=
  .unions [graphemeExtend, categories.get "mc", .ascii [(0x200D, 0x200D)]]

/-- Lower-case letters in sentences; Georgian letters are of no case there. -/
def sentenceLower : CharClass :=
  lowercase.diff (.ascii [(0x345, 0x345), (0x10D0, 0x10FA), (0x10FD, 0x10FF)])

/-- Upper-case letters in sentences. -/
def sentenceUpper : CharClass :=
  (uppercase.union (categories.get "lt")).diff (.ascii [(0x1C90, 0x1CBA), (0x1CBD, 0x1CBF)])

/-- The class with the given name for the division into sentences. -/
def sentenceBreak? (name : String) : Option CharClass :=
  match name with
  | "ex" | "extend" => some sentenceExtend
  | "lo" | "lower" => some sentenceLower
  | "up" | "upper" => some sentenceUpper
  | "le" | "oletter" =>
    some ((alphabetic.union (.ascii [(0x5F3, 0x5F3)])).diff
      (.unions [sentenceLower, sentenceUpper, sentenceExtend]))
  | "nu" | "numeric" => some (wordNumeric.union (.ascii [(0x66C, 0x66C)]))
  | "st" | "sterm" =>
    some ((properties.get "sentenceterminal").diff
      (.ascii [(0x2E, 0x2E), (0x2024, 0x2024), (0xFE52, 0xFE52), (0xFF0E, 0xFF0E)]))
  | _ => sentenceBreaks.find? name

/-! ## Names -/

/-- A name in the form of the tables: in lower case, without blanks, hyphens, underscores and a
leading `is`. What is not ASCII does not count. -/
def plainName (name : List Char) : String :=
  let plain (cs : List Char) : List Char :=
    (cs.filter fun c => !(c == ' ' || c == '_' || c == '-') && c.toNat < 0x80).map Char.toLower
  match name with
  | i :: s :: rest =>
    if i.toLower = 'i' ∧ s.toLower = 's' then
      -- the name `isc` is one of its own, not a form of `c`
      if plain rest = ['c'] then "isc" else String.ofList (plain rest)
    else String.ofList (plain name)
  | _ => String.ofList (plain name)

/-- The class that a property name on its own stands for: a binary property, a general category or
a script. -/
def property? (name : List Char) : Option CharClass :=
  let name := plainName name
  -- as names of properties these three are not in use
  let binary := if ["cf", "sc", "lc"].contains name then none else binary? name
  match binary with
  | some c => some c
  | none =>
    match category? name with
    | some c => some c
    | none => script? name

/-- The class of the characters whose property has the given value. -/
def propertyValue? (property value : List Char) : Option CharClass :=
  let value := plainName value
  match plainName property with
  | "gc" | "generalcategory" => category? value
  | "sc" | "script" => script? value
  | "scx" | "scriptextensions" => scriptExtension? value
  | "age" => age? value
  | "gcb" | "graphemeclusterbreak" => graphemeBreak? value
  | "wb" | "wordbreak" => wordBreak? value
  | "sb" | "sentencebreak" => sentenceBreak? value
  | _ => none

/-! ## Classes of letters -/

/-- Decimal digits. -/
def digit : CharClass := categories.get "nd"

/-- White space. -/
def space : CharClass := properties.get "whitespace"

/-- Word characters: letters, marks, digits, connectors and joiners. -/
def word : CharClass :=
  .unions [alphabetic, categories.getAll ["mn", "mc", "me", "nd", "pc"],
    properties.get "joincontrol"]

end EdgeBundle.Unicode
