import EdgeBundle.Json.Printer
import EdgeBundle.Proofs.Text.Quoted
import EdgeBundle.Proofs.Text.Search

/-!
# Objects of strings

The written form of an object whose members are strings is read as the object, and no character of
it is a control character.

## Main definitions

* `memberText`: written form of a member that is a string.
* `ofStrings`: an object of strings.
* `Printable`: texts without control characters.

## Main statements

* `toList_compact_strings`: the written form of the object.
* `sortMembers_of_pairwise`: members that are in order stay in order.
* `parse?_compact_strings`: the written form is read as the object.
* `printable_compact_strings`: the written form stays on one line.
-/

namespace EdgeBundle.Json

/-! ## Writing -/

/-- Written form of a member that is a string. -/
def memberText (m : String × String) : List Char :=
  Quoted.encode m.1.toList ++ ':' :: Quoted.encode m.2.toList

/-- An object whose members are strings. -/
def ofStrings (members : List (String × String)) : Json :=
  .object (members.map fun m => (m.1, .string m.2))

theorem toList_quoted (s : String) : (quoted s).toList = Quoted.encode s.toList :=
  String.toList_ofList

theorem toList_foldl_append (separator item : String) (items : List String) :
    (items.foldl (fun text next => text ++ separator ++ next) item).toList =
      separator.toList.intercalate (item.toList :: items.map String.toList) := by
  induction items generalizing item with
  | nil => simp
  | cons next items ih =>
    rw [List.foldl_cons, ih, List.map_cons, List.intercalate_cons_cons]
    cases items <;> simp

theorem toList_joinWith (separator : String) (items : List String) :
    (joinWith separator items).toList =
      separator.toList.intercalate (items.map String.toList) := by
  match items with
  | [] => rfl
  | [item] => simp [joinWith]
  | item :: next :: items => exact toList_foldl_append separator item (next :: items)

theorem compactMembers_strings (members : List (String × String)) :
    (compactMembers (members.map fun m => (m.1, .string m.2))).map String.toList =
      members.map memberText := by
  induction members with
  | nil => rfl
  | cons m ms ih =>
    rw [List.map_cons, compactMembers, List.map_cons, ih, List.map_cons]
    simp [compact, memberText, toList_quoted]

/-- The written form of an object of strings lists its members in order. -/
theorem toList_compact_strings (members : List (String × String)) :
    (ofStrings members).compact.toList =
      '\x7b' :: ([','].intercalate (members.map memberText) ++ ['\x7d']) := by
  simp [ofStrings, compact, toList_joinWith, compactMembers_strings]

/-! ## Sorting -/

theorem insertMember_of_forall_lt {key : String} {value : Json} {sorted : List (String × Json)}
    (h : ∀ m ∈ sorted, m.1 < key) :
    insertMember key value sorted = sorted ++ [(key, value)] := by
  induction sorted with
  | nil => rfl
  | cons m ms ih =>
    obtain ⟨hm, hms⟩ := List.forall_mem_cons.mp h
    rw [insertMember, if_neg (String.lt_asymm hm), if_pos hm, ih hms, List.cons_append]

theorem foldl_insertMember_of_pairwise {sorted members : List (String × Json)}
    (h : (sorted ++ members).Pairwise fun a b => a.1 < b.1) :
    members.foldl (fun sorted m => insertMember m.1 m.2 sorted) sorted = sorted ++ members := by
  induction members generalizing sorted with
  | nil => rw [List.foldl_nil, List.append_nil]
  | cons m ms ih =>
    have hlast : ∀ m' ∈ sorted, m'.1 < m.1 := fun m' hm' =>
      (List.pairwise_append.mp h).2.2 m' hm' m List.mem_cons_self
    rw [List.foldl_cons, insertMember_of_forall_lt hlast, ih (by simpa using h)]
    simp

/-- Members that are in order stay in order. -/
theorem sortMembers_of_pairwise {members : List (String × Json)}
    (h : members.Pairwise fun a b => a.1 < b.1) : sortMembers members = members :=
  foldl_insertMember_of_pairwise h

/-! ## Reading -/

variable {fuel : Nat} {acc : List (String × Json)} {cs : List Char}

theorem readString_encode (s cs : List Char) :
    ∃ body, Quoted.encode s ++ cs = '"' :: body ∧ readString [] body = some (s, cs) :=
  ⟨s.flatMap Quoted.escape ++ '"' :: cs, by simp [Quoted.encode], readString_flatMap_escape s cs⟩

/-- The key of a member is read first, then the colon, then the value. -/
theorem exists_readString_memberText (m : String × String) (cs : List Char) :
    ∃ key value, memberText m ++ cs = '"' :: key ∧
      readString [] key = some (m.1.toList, ':' :: '"' :: value) ∧
      readString [] value = some (m.2.toList, cs) := by
  obtain ⟨value, hvalue, hreadValue⟩ := readString_encode m.2.toList cs
  obtain ⟨key, hkey, hreadKey⟩ := readString_encode m.1.toList (':' :: '"' :: value)
  refine ⟨key, value, ?_, hreadKey, hreadValue⟩
  rw [memberText, List.append_assoc, List.cons_append, hvalue, hkey]

theorem readMembers_comma (m : String × String) :
    readMembers (fuel + 2) acc (memberText m ++ ',' :: cs) =
      readMembers (fuel + 1) ((m.1, .string m.2) :: acc) cs := by
  obtain ⟨key, value, htext, hkey, hvalue⟩ := exists_readString_memberText m (',' :: cs)
  rw [htext, readMembers]
  simp [skipBlanks, isBlank, hkey, readValue, hvalue]

theorem readMembers_brace (m : String × String) :
    readMembers (fuel + 2) acc (memberText m ++ '\x7d' :: cs) =
      some (.object (sortMembers (acc.reverse ++ [(m.1, .string m.2)])), cs) := by
  obtain ⟨key, value, htext, hkey, hvalue⟩ := exists_readString_memberText m ('\x7d' :: cs)
  rw [htext, readMembers]
  simp [skipBlanks, isBlank, hkey, readValue, hvalue]

/-- Members are read up to the closing brace. -/
theorem readMembers_intercalate (m : String × String) (ms : List (String × String))
    (acc : List (String × Json)) (hfuel : ms.length + 2 ≤ fuel) (cs : List Char) :
    readMembers fuel acc ([','].intercalate ((m :: ms).map memberText) ++ '\x7d' :: cs) =
      some (.object (sortMembers (acc.reverse ++ (m :: ms).map fun m => (m.1, .string m.2))),
        cs) := by
  -- on the members after the first one, which decide whether a comma or the brace comes next
  induction ms generalizing m fuel acc with
  | nil =>
    obtain ⟨fuel, rfl⟩ := Nat.exists_eq_add_of_le' hfuel
    rw [List.map_singleton, List.intercalate_singleton]
    exact readMembers_brace m
  | cons m' ms ih =>
    have hmore : ms.length + 1 + 2 ≤ fuel := hfuel
    obtain ⟨fuel, rfl⟩ := Nat.exists_eq_add_of_le' (Nat.le_trans (by omega : 2 ≤ _) hmore)
    rw [List.map_cons, List.map_cons, List.intercalate_cons_cons, List.append_assoc,
      List.append_assoc, List.singleton_append, readMembers_comma, ← List.map_cons,
      ih m' _ (by omega)]
    simp

theorem exists_intercalate_memberText (m : String × String) (ms : List (String × String)) :
    ∃ body, [','].intercalate ((m :: ms).map memberText) = '"' :: body := by
  rw [List.map_cons, memberText, Quoted.encode, List.cons_append, List.cons_append,
    List.intercalate_cons_cons_left]
  exact ⟨_, rfl⟩

theorem length_le_length_intercalate (m : String × String) (ms : List (String × String)) :
    ms.length ≤ ([','].intercalate ((m :: ms).map memberText)).length := by
  induction ms generalizing m with
  | nil => exact Nat.zero_le _
  | cons m' ms ih =>
    have hrest := ih m'
    rw [List.map_cons] at hrest
    rw [List.map_cons, List.map_cons, List.intercalate_cons_cons]
    simp only [List.length_append, List.length_cons, List.length_nil]
    omega

/-- An object that is not empty is read member by member. -/
theorem readValue_of_member :
    readValue (fuel + 1) ('\x7b' :: '"' :: cs) = readMembers fuel [] ('"' :: cs) := by
  simp [readValue, skipBlanks, isBlank]

/-- The written form of an object of strings in order is read as the object. -/
theorem parse?_compact_strings {members : List (String × String)}
    (h : members.Pairwise fun a b => a.1 < b.1) :
    parse? (ofStrings members).compact = some (ofStrings members) := by
  have hsorted : sortMembers (members.map fun m => (m.1, .string m.2)) =
      members.map fun m => (m.1, .string m.2) :=
    sortMembers_of_pairwise (List.pairwise_map.mpr h)
  rw [parse?, toList_compact_strings]
  cases members with
  | nil => simp [readValue, skipBlanks, isBlank, ofStrings]
  | cons m ms =>
    obtain ⟨body, hbody⟩ := exists_intercalate_memberText m ms
    -- there is more fuel than characters, and every member has a character
    have hfuel : ms.length + 2 ≤ 2 * ('\x7b' :: ([','].intercalate ((m :: ms).map memberText) ++
        ['\x7d'])).length + 1 := by
      have hlength := length_le_length_intercalate m ms
      rw [List.length_cons, List.length_append]
      omega
    have hread := readMembers_intercalate m ms [] hfuel []
    rw [List.reverse_nil, List.nil_append, hsorted] at hread
    rw [hbody, List.cons_append] at hread ⊢
    rw [readValue_of_member, hread]
    rfl

/-! ## Printable characters -/

/-- Whether no character of a text is a control character. -/
def Printable (cs : List Char) : Prop :=
  ∀ c ∈ cs, 0x20 ≤ c.toNat

theorem printable_cons {c : Char} {cs : List Char} :
    Printable (c :: cs) ↔ 0x20 ≤ c.toNat ∧ Printable cs :=
  List.forall_mem_cons

theorem printable_singleton {c : Char} : Printable [c] ↔ 0x20 ≤ c.toNat :=
  List.forall_mem_singleton

theorem printable_append {as bs : List Char} :
    Printable (as ++ bs) ↔ Printable as ∧ Printable bs :=
  List.forall_mem_append

theorem hexDigit_printable {n : Nat} (hn : n < 16) : 0x20 ≤ (Quoted.hexDigit n).toNat := by
  have hall : ∀ n < 16, 0x20 ≤ (Quoted.hexDigit n).toNat := by decide
  exact hall n hn

theorem printable_escape (c : Char) : Printable (Quoted.escape c) := by
  by_cases hmem : c ∈ simpleEscapes.map Prod.fst
  · have hletters : ∀ p ∈ simpleEscapes, 0x20 ≤ p.2.toNat := by decide
    obtain ⟨p, hp, rfl⟩ := List.mem_map.mp hmem
    rw [(escape_of_mem p hp).1]
    exact printable_cons.mpr ⟨by decide, printable_singleton.mpr (hletters p hp)⟩
  · rw [escape_of_not_mem hmem]
    split
    -- a control character is written by the digits of its number
    next hcontrol =>
      have hhigh := hexDigit_printable (n := c.toNat / 16) (by omega)
      have hlow := hexDigit_printable (n := c.toNat % 16) (by omega)
      simp [Printable, hhigh, hlow]
    next hcontrol => exact printable_singleton.mpr (Nat.not_lt.mp hcontrol)

theorem printable_encode (cs : List Char) : Printable (Quoted.encode cs) := by
  have hquote : Printable ['"'] := printable_singleton.mpr (by decide)
  refine printable_append.mpr ⟨printable_cons.mpr ⟨by decide, fun d hd => ?_⟩, hquote⟩
  obtain ⟨c, -, hd⟩ := List.mem_flatMap.mp hd
  exact printable_escape c d hd

theorem printable_intercalate {texts : List (List Char)} (h : ∀ text ∈ texts, Printable text) :
    Printable ([','].intercalate texts) := by
  have hcomma : Printable [','] := printable_singleton.mpr (by decide)
  intro c hc
  rcases mem_intercalate hc with hc | ⟨text, htext, hc⟩
  · exact hcomma c hc
  · exact h text htext c hc

/-- The written form of an object of strings stays on one line. -/
theorem printable_compact_strings (members : List (String × String)) :
    Printable (ofStrings members).compact.toList := by
  have hmember : ∀ text ∈ members.map memberText, Printable text := by
    intro text htext
    obtain ⟨m, -, rfl⟩ := List.mem_map.mp htext
    exact printable_append.mpr
      ⟨printable_encode _, printable_cons.mpr ⟨by decide, printable_encode _⟩⟩
  have hbrace : Printable ['\x7d'] := printable_singleton.mpr (by decide)
  rw [toList_compact_strings]
  exact printable_cons.mpr
    ⟨by decide, printable_append.mpr ⟨printable_intercalate hmember, hbrace⟩⟩

end EdgeBundle.Json
