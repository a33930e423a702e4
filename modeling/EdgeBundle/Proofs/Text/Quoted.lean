import EdgeBundle.Json.Parser
import EdgeBundle.Text.Quoted

/-!
# Quoted text is JSON

The quoted form of a text is a JSON string that holds the text, whatever characters are in it.

## Main statements

* `Json.readString_escape`: the written form of a character is read as that character.
* `Json.parse?_quoted`: the quoted form of a text is read as the text.
-/

namespace EdgeBundle.Json

variable {c e : Char} {acc cs : List Char}

/-! ## Characters -/

theorem readString_simple (h : simpleEscape? e = some c) (hu : e ≠ 'u') :
    readString acc ('\\' :: e :: cs) = readString (c :: acc) cs := by
  rw [readString, h]
  exact fun _ _ _ _ _ he => absurd he hu

theorem readString_plain (hquote : c ≠ '"') (hescape : c ≠ '\\') (hcontrol : ¬ c.toNat < 0x20) :
    readString acc (c :: cs) = readString (c :: acc) cs := by
  rw [readString, if_neg hcontrol]
  · exact hquote
  · exact fun _ _ _ _ _ h => absurd h hescape
  · exact fun _ _ h => absurd h hescape

/-- The number of a control character is written in two hexadecimal digits. -/
theorem hexValue4?_hexDigit {n : Nat} (hn : n < 0x20) :
    hexValue4? '0' '0' (Quoted.hexDigit (n / 16)) (Quoted.hexDigit (n % 16)) = some n := by
  have hall : ∀ n < 0x20,
      hexValue4? '0' '0' (Quoted.hexDigit (n / 16)) (Quoted.hexDigit (n % 16)) = some n := by
    decide
  exact hall n hn

theorem readString_control (hcontrol : c.toNat < 0x20) :
    readString acc ('\\' :: 'u' :: '0' :: '0' :: Quoted.hexDigit (c.toNat / 16) ::
      Quoted.hexDigit (c.toNat % 16) :: cs) = readString (c :: acc) cs := by
  -- a control character is no half of a surrogate pair
  have hhigh : ¬ (0xD800 ≤ c.toNat ∧ c.toNat < 0xDC00) := by omega
  have hlow : ¬ (0xDC00 ≤ c.toNat ∧ c.toNat < 0xE000) := by omega
  rw [readString, hexValue4?_hexDigit hcontrol]
  simp only [if_neg hhigh, if_neg hlow, Char.ofNat_toNat]

/-- Characters with what follows the backslash in their written form. -/
def simpleEscapes : List (Char × Char) :=
  [('"', '"'), ('\\', '\\'), ('\n', 'n'), ('\r', 'r'), ('\t', 't'), ('\x08', 'b'), ('\x0c', 'f')]

theorem escape_of_mem : ∀ p ∈ simpleEscapes, Quoted.escape p.1 = ['\\', p.2] ∧
    simpleEscape? p.2 = some p.1 ∧ p.2 ≠ 'u' := by
  decide

theorem escape_of_not_mem (h : c ∉ simpleEscapes.map Prod.fst) :
    Quoted.escape c = if c.toNat < 0x20 then
      ['\\', 'u', '0', '0', Quoted.hexDigit (c.toNat / 16), Quoted.hexDigit (c.toNat % 16)]
    else [c] := by
  simp only [simpleEscapes, List.map_cons, List.map_nil, List.mem_cons, List.not_mem_nil, or_false,
    not_or] at h
  obtain ⟨hquote, hescape, hline, hreturn, htab, hback, hform⟩ := h
  rw [Quoted.escape, if_neg hquote, if_neg hescape, if_neg hline, if_neg hreturn, if_neg htab,
    if_neg hback, if_neg hform]

/-- The written form of a character is read as that character. -/
theorem readString_escape (c : Char) :
    readString acc (Quoted.escape c ++ cs) = readString (c :: acc) cs := by
  by_cases hmem : c ∈ simpleEscapes.map Prod.fst
  · obtain ⟨p, hp, rfl⟩ := List.mem_map.mp hmem
    obtain ⟨htext, hread, hu⟩ := escape_of_mem p hp
    rw [htext]
    exact readString_simple hread hu
  · have hquote : c ≠ '"' := fun h => hmem (h ▸ by decide)
    have hescape : c ≠ '\\' := fun h => hmem (h ▸ by decide)
    rw [escape_of_not_mem hmem]
    split
    next hcontrol => exact readString_control hcontrol
    next hcontrol => exact readString_plain hquote hescape hcontrol

/-! ## Texts -/

/-- The written forms of characters are read up to the closing quote. -/
theorem readString_flatMap_escape (s rest : List Char) :
    readString acc (s.flatMap Quoted.escape ++ '"' :: rest) = some (acc.reverse ++ s, rest) := by
  induction s generalizing acc with
  | nil => rw [List.flatMap_nil, List.nil_append, readString, List.append_nil]
  | cons c s ih =>
    rw [List.flatMap_cons, List.append_assoc, readString_escape, ih, List.reverse_cons,
      List.append_assoc, List.singleton_append]

/-- The quoted form of a text is a JSON string that holds the text. -/
theorem parse?_quoted (s : String) : parse? (quoted s) = some (.string s) := by
  have htext : (quoted s).toList = '"' :: (s.toList.flatMap Quoted.escape ++ '"' :: []) := by
    rw [quoted, String.toList_ofList, Quoted.encode, List.cons_append]
  have hread : readString [] (s.toList.flatMap Quoted.escape ++ '"' :: []) =
      some (s.toList, []) := readString_flatMap_escape s.toList []
  rw [parse?, htext]
  simp [readValue, skipBlanks, isBlank, hread]

end EdgeBundle.Json
