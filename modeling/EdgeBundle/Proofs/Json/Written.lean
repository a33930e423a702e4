import EdgeBundle.Proofs.Decimal.Numeral
import EdgeBundle.Proofs.Json.Members

/-!
# Reading written JSON back

The one-line form and the indented forms of a value have one structure: entries that a comma parts
between brackets, with a gap in front of each entry and of the closing bracket. A value can be read
from such a text in one way only, as long as its strings can be told from what follows them.

## Main definitions

* `Writer`: a way to write values, with the texts of strings and keys and the gaps left open.
* `Spelled`: a value with strings and keys of a kind only.
* `Writer.Readable`: strings of the kind can be told from what follows them.
* `compactWriter`, `layoutWriter`: the one-line form, and the forms over several lines.

## Main statements

* `Writer.text_append_inj`: a value can be read in one way only.
* `compact_injective`, `indented_injective`: JSON texts of different values are different.
-/

namespace EdgeBundle.Json

/-! ## Entries between brackets -/

section Entries

variable (before after : List Char) (closing : Char)

/-- The entries after the first one, each after a comma, up to the closing bracket. -/
def moreEntries : List (List Char) → List Char
  | [] => after ++ [closing]
  | entry :: entries => ',' :: (before ++ (entry ++ moreEntries entries))

/-- Entries between brackets; no entries leave the brackets empty. -/
def bracketed (opening : Char) : List (List Char) → List Char
  | [] => [opening, closing]
  | entry :: entries => opening :: (before ++ (entry ++ moreEntries before after closing entries))

/-- Entries are joined by a separator that starts with the comma. -/
theorem intercalate_eq_moreEntries (gap indent entry : List Char) (entries : List (List Char)) :
    (',' :: gap).intercalate ((entry :: entries).map (indent ++ ·)) ++ (after ++ [closing]) =
      indent ++ (entry ++ moreEntries (gap ++ indent) after closing entries) := by
  induction entries generalizing entry with
  | nil => simp [moreEntries]
  | cons next entries ih =>
    rw [List.map_cons, List.map_cons, List.intercalate_cons_cons, ← List.map_cons,
      List.append_assoc, ih next, moreEntries]
    simp

variable {before after closing}
variable {α : Type} {text : α → List Char} {rest : List Char → Prop} {xs ys : List α}
variable {a b : List Char}

theorem rest_moreEntries (hcomma : ∀ a, rest (',' :: (before ++ a)))
    (hclose : ∀ a, rest a → rest (after ++ closing :: a)) (ha : rest a)
    (entries : List (List Char)) : rest (moreEntries before after closing entries ++ a) := by
  cases entries with
  | nil =>
    rw [moreEntries, List.append_assoc]
    exact hclose a ha
  | cons entry entries =>
    rw [moreEntries, List.cons_append, List.append_assoc]
    exact hcomma _

/-- Entries can be read in one way only if each of them can. -/
theorem moreEntries_append_inj (hcomma : ∀ a, rest (',' :: (before ++ a)))
    (hclose : ∀ a, rest a → rest (after ++ closing :: a))
    (hend : ∀ a, (after ++ closing :: a).head? ≠ some ',')
    (hread : ∀ x ∈ xs, ∀ y ∈ ys, ∀ a b, rest a → rest b → text x ++ a = text y ++ b →
      x = y ∧ a = b)
    (ha : rest a) (hb : rest b)
    (h : moreEntries before after closing (xs.map text) ++ a =
      moreEntries before after closing (ys.map text) ++ b) : xs = ys ∧ a = b := by
  -- on the one list; a comma tells that the other one has a further entry too
  induction xs generalizing ys with
  | nil =>
    cases ys with
    | nil => exact ⟨rfl, List.append_cancel_left h⟩
    | cons y ys =>
      simp only [List.map_nil, List.map_cons, moreEntries, List.append_assoc, List.cons_append,
        List.nil_append] at h
      exact absurd (congrArg List.head? h) (hend a)
  | cons x xs ih =>
    cases ys with
    | nil =>
      simp only [List.map_nil, List.map_cons, moreEntries, List.append_assoc, List.cons_append,
        List.nil_append] at h
      exact absurd (congrArg List.head? h.symm) (hend b)
    | cons y ys =>
      simp only [List.map_cons, moreEntries, List.append_assoc, List.cons_append] at h
      have htext := List.append_cancel_left (List.cons.inj h).2
      obtain ⟨rfl, hrest⟩ := hread x List.mem_cons_self y List.mem_cons_self _ _
        (rest_moreEntries hcomma hclose ha _) (rest_moreEntries hcomma hclose hb _) htext
      obtain ⟨rfl, hab⟩ := ih (fun x' hx' y' hy' =>
        hread x' (List.mem_cons_of_mem _ hx') y' (List.mem_cons_of_mem _ hy')) hrest
      exact ⟨rfl, hab⟩

/-- A bracket that is not empty is told from an empty one by what follows the opening bracket. -/
theorem bracketed_append_inj {opening : Char} (hcomma : ∀ a, rest (',' :: (before ++ a)))
    (hclose : ∀ a, rest a → rest (after ++ closing :: a))
    (hend : ∀ a, (after ++ closing :: a).head? ≠ some ',')
    (hopen : ∀ x a, (before ++ (text x ++ a)).head? ≠ some closing)
    (hread : ∀ x ∈ xs, ∀ y ∈ ys, ∀ a b, rest a → rest b → text x ++ a = text y ++ b →
      x = y ∧ a = b)
    (ha : rest a) (hb : rest b)
    (h : bracketed before after closing opening (xs.map text) ++ a =
      bracketed before after closing opening (ys.map text) ++ b) : xs = ys ∧ a = b := by
  cases xs with
  | nil =>
    cases ys with
    | nil => exact ⟨rfl, List.append_cancel_left h⟩
    | cons y ys =>
      simp only [List.map_nil, List.map_cons, bracketed, List.append_assoc, List.cons_append,
        List.nil_append, List.cons.injEq, true_and] at h
      exact absurd (congrArg List.head? h.symm) (hopen y _)
  | cons x xs =>
    cases ys with
    | nil =>
      simp only [List.map_nil, List.map_cons, bracketed, List.append_assoc, List.cons_append,
        List.nil_append, List.cons.injEq, true_and] at h
      exact absurd (congrArg List.head? h) (hopen x _)
    | cons y ys =>
      -- from the first entry on it is as if a comma stood in front
      apply moreEntries_append_inj hcomma hclose hend hread ha hb
      simp only [List.map_cons, bracketed, moreEntries, List.cons_append, List.cons.injEq,
        true_and] at h ⊢
      exact h

end Entries

/-! ## Ways to write values -/

/-- A way to write values. -/
structure Writer where
  /-- Text of a value at a level. -/
  text : ℕ → Json → List Char
  /-- Text of a string. -/
  string : String → List Char
  /-- Text of a key. -/
  key : String → List Char
  /-- What stands in front of an entry or a closing bracket at a level. -/
  gap : ℕ → List Char
  /-- What stands between the colon and the value of a member. -/
  pad : List Char
  /-- The null value stands as it is. -/
  text_null : ∀ level, text level .null = "null".toList
  /-- Truth values stand as they are. -/
  text_bool : ∀ level b, text level (.bool b) = (if b then "true" else "false").toList
  /-- Numbers stand as they are. -/
  text_number : ∀ level n, text level (.number n) = n.toText.toList
  /-- A string alone is a value. -/
  text_string : ∀ level s, text level (.string s) = string s
  /-- Items stand between square brackets. -/
  text_array : ∀ level items, text level (.array items) =
    bracketed (gap (level + 1)) (gap level) ']' '[' (items.map (text (level + 1)))
  /-- Members stand between braces. -/
  text_object : ∀ level members, text level (.object members) =
    bracketed (gap (level + 1)) (gap level) '\x7d' '\x7b'
      (members.map fun m => key m.1 ++ ':' :: (pad ++ text (level + 1) m.2))

/-- All strings and keys in a value are admitted. -/
inductive Spelled (admits : String → Prop) : Json → Prop
  /-- The null value has no strings. -/
  | null : Spelled admits .null
  /-- A truth value has no strings. -/
  | bool (b : Bool) : Spelled admits (.bool b)
  /-- A number has no strings. -/
  | number (n : JsonNumber) : Spelled admits (.number n)
  /-- A string that is admitted. -/
  | string {s : String} (h : admits s) : Spelled admits (.string s)
  /-- All items are spelled so. -/
  | array {items : List Json} (h : ∀ item ∈ items, Spelled admits item) :
    Spelled admits (.array items)
  /-- All keys are admitted, and all values are spelled so. -/
  | object {members : List (String × Json)} (hkeys : ∀ m ∈ members, admits m.1)
    (hvalues : ∀ m ∈ members, Spelled admits m.2) : Spelled admits (.object members)

/-- Strings that are admitted can be told from what follows them, where `apart` describes what may
follow a value. -/
structure Writer.Readable (w : Writer) (admits : String → Prop) (apart : List Char → Prop) :
    Prop where
  /-- The end of the text may follow. -/
  apart_nil : apart []
  /-- The next entry may follow. -/
  apart_comma : ∀ level a, apart (',' :: (w.gap (level + 1) ++ a))
  /-- The closing bracket may follow, if what is after it may. -/
  apart_close : ∀ level a c, c = ']' ∨ c = '\x7d' → apart a → apart (w.gap level ++ c :: a)
  /-- A gap consists of blanks. -/
  gap_blank : ∀ level, ∀ c ∈ w.gap level, c = '\n' ∨ c = ' '
  /-- A string starts with a quote. -/
  string_quote : ∀ s, ∃ cs, w.string s = '"' :: cs
  /-- A key starts with a quote. -/
  key_quote : ∀ s, ∃ cs, w.key s = '"' :: cs
  /-- The end of a string can be found. -/
  string_inj : ∀ {s t a b}, admits s → admits t → apart a → apart b →
    w.string s ++ a = w.string t ++ b → s = t ∧ a = b
  /-- The end of a key can be found. -/
  key_inj : ∀ {s t a b}, admits s → admits t →
    w.key s ++ ':' :: (w.pad ++ a) = w.key t ++ ':' :: (w.pad ++ b) → s = t ∧ a = b

namespace Writer

variable {w : Writer} {admits : String → Prop} {apart : List Char → Prop} {level : ℕ}

/-- The kind of value that a text starts with, as its place among the constructors. -/
def kindOf (c : Char) : ℕ :=
  if c = 'n' then 0
  else if c = 't' ∨ c = 'f' then 1
  else if c = '-' ∨ c.isDigit then 2
  else if c = '"' then 3
  else if c = '[' then 4
  else if c = '\x7b' then 5
  else 6

theorem kindOf_number {c : Char} (h : c = '-' ∨ c.isDigit = true) : kindOf c = 2 := by
  have hnull : c ≠ 'n' := by
    rintro rfl
    exact absurd h (by decide)
  have htruth : ¬ (c = 't' ∨ c = 'f') := by
    rintro (rfl | rfl)
    · exact absurd h (by decide)
    · exact absurd h (by decide)
  rw [kindOf, if_neg hnull, if_neg htruth, if_pos h]

/-- The first character of a text tells what kind of value it is. -/
theorem exists_text_eq_cons (hw : w.Readable admits apart) (level : ℕ) (v : Json) :
    ∃ c cs, w.text level v = c :: cs ∧ kindOf c = v.ctorIdx := by
  cases v with
  | null => exact ⟨'n', _, w.text_null level, rfl⟩
  | bool b =>
    rw [w.text_bool]
    cases b with
    | false => exact ⟨'f', _, rfl, rfl⟩
    | true => exact ⟨'t', _, rfl, rfl⟩
  | number n =>
    obtain ⟨c, cs, htext, hc⟩ := n.exists_toText_eq_cons
    exact ⟨c, cs, (w.text_number level n).trans htext, kindOf_number hc⟩
  | string s =>
    obtain ⟨cs, hcs⟩ := hw.string_quote s
    exact ⟨'"', cs, (w.text_string level s).trans hcs, rfl⟩
  | array items =>
    rw [w.text_array]
    cases items with
    | nil => exact ⟨'[', _, rfl, rfl⟩
    | cons item items => exact ⟨'[', _, rfl, rfl⟩
  | object members =>
    rw [w.text_object]
    cases members with
    | nil => exact ⟨'\x7b', _, rfl, rfl⟩
    | cons m members => exact ⟨'\x7b', _, rfl, rfl⟩

/-! ## What may follow a value -/

/-- A text that may follow a value. -/
def Follows (apart : List Char → Prop) (a : List Char) : Prop :=
  apart a ∧ Numeral.Ends a

/-- Where a text does not start with a character, it does not with a gap in front either. -/
theorem head?_gap_append_ne (hw : w.Readable admits apart) {c : Char} {a : List Char}
    (hline : c ≠ '\n') (hspace : c ≠ ' ') (ha : a.head? ≠ some c) :
    (w.gap level ++ a).head? ≠ some c := by
  cases hgap : w.gap level with
  | nil => exact ha
  | cons d ds =>
    rintro ⟨⟩
    have hblank := hw.gap_blank level c (hgap ▸ List.mem_cons_self)
    exact hblank.elim hline hspace

theorem follows_nil (hw : w.Readable admits apart) : Follows apart [] :=
  ⟨hw.apart_nil, Numeral.ends_nil⟩

theorem follows_comma (hw : w.Readable admits apart) (a : List Char) :
    Follows apart (',' :: (w.gap (level + 1) ++ a)) :=
  ⟨hw.apart_comma level a, Numeral.ends_cons (by decide) (by decide) (by decide)⟩

theorem follows_close (hw : w.Readable admits apart) {c : Char} (hc : c = ']' ∨ c = '\x7d')
    {a : List Char} (ha : Follows apart a) : Follows apart (w.gap level ++ c :: a) := by
  have hclosing : c.isDigit = false ∧ c ≠ '.' ∧ c ≠ 'e' := by
    rcases hc with rfl | rfl
    · decide
    · decide
  have hblank : ∀ c, c = '\n' ∨ c = ' ' → c.isDigit = false ∧ c ≠ '.' ∧ c ≠ 'e' := by
    rintro c (rfl | rfl)
    · decide
    · decide
  refine ⟨hw.apart_close level a c hc ha.1, ?_⟩
  intro d hd
  cases hgap : w.gap level with
  | nil =>
    rw [hgap] at hd
    cases hd
    exact hclosing
  | cons e es =>
    rw [hgap] at hd
    cases hd
    exact hblank d (hw.gap_blank level d (hgap ▸ List.mem_cons_self))

/-! ## Reading a value -/

/-- Values with the same text are of the same kind, whatever follows. -/
theorem ctorIdx_eq_of_text_append (hw : w.Readable admits apart) {v u : Json} {a b : List Char}
    (h : w.text level v ++ a = w.text level u ++ b) : v.ctorIdx = u.ctorIdx := by
  obtain ⟨c, cs, htext, hc⟩ := exists_text_eq_cons hw level v
  obtain ⟨d, ds, htext', hd⟩ := exists_text_eq_cons hw level u
  rw [htext, htext'] at h
  rw [← hc, ← hd, (List.cons.inj h).1]

/-- No value starts with a closing bracket. -/
theorem head?_text_append_ne (hw : w.Readable admits apart) {c : Char} (hc : kindOf c = 6)
    (v : Json) (a : List Char) : (w.text level v ++ a).head? ≠ some c := by
  obtain ⟨d, ds, htext, hd⟩ := exists_text_eq_cons hw level v
  rw [htext]
  rintro ⟨⟩
  rw [hc] at hd
  cases v <;> exact nomatch hd

theorem truth_append_inj {p q : Bool} {a b : List Char}
    (h : (if p then "true" else "false").toList ++ a =
      (if q then "true" else "false").toList ++ b) : p = q ∧ a = b := by
  have hletters : ('f' : Char) ≠ 't' := by decide
  cases p <;> cases q
  · exact ⟨rfl, List.append_cancel_left h⟩
  · exact absurd (List.cons.inj h).1 hletters
  · exact absurd (List.cons.inj h).1 hletters.symm
  · exact ⟨rfl, List.append_cancel_left h⟩

/-- A value can be read in one way only. -/
theorem text_append_inj (hw : w.Readable admits apart) {v u : Json} (hv : v.Spelled admits)
    (hu : u.Spelled admits) {a b : List Char} (ha : Follows apart a) (hb : Follows apart b)
    (h : w.text level v ++ a = w.text level u ++ b) : v = u ∧ a = b := by
  -- on the first value; the second one is of the same kind, so that the cases meet
  induction hv generalizing u level a b with
  | null =>
    have hkind := ctorIdx_eq_of_text_append hw h
    cases u with
    | null => exact ⟨rfl, List.append_cancel_left h⟩
    | _ => exact nomatch hkind
  | bool p =>
    have hkind := ctorIdx_eq_of_text_append hw h
    cases u with
    | bool q =>
      rw [w.text_bool, w.text_bool] at h
      obtain ⟨rfl, hab⟩ := truth_append_inj h
      exact ⟨rfl, hab⟩
    | _ => exact nomatch hkind
  | number n =>
    have hkind := ctorIdx_eq_of_text_append hw h
    cases u with
    | number m =>
      rw [w.text_number, w.text_number] at h
      obtain ⟨rfl, hab⟩ := JsonNumber.toText_append_inj ha.2 hb.2 h
      exact ⟨rfl, hab⟩
    | _ => exact nomatch hkind
  | string hs =>
    have hkind := ctorIdx_eq_of_text_append hw h
    cases hu with
    | string ht =>
      rw [w.text_string, w.text_string] at h
      obtain ⟨rfl, hab⟩ := hw.string_inj hs ht ha.1 hb.1 h
      exact ⟨rfl, hab⟩
    | _ => exact nomatch hkind
  | array hitems ih =>
    have hkind := ctorIdx_eq_of_text_append hw h
    cases hu with
    | array hitems' =>
      rw [w.text_array, w.text_array] at h
      obtain ⟨rfl, hab⟩ := bracketed_append_inj (follows_comma hw)
        (fun _ => follows_close hw (.inl rfl))
        (fun a => head?_gap_append_ne hw (by decide) (by decide) (by simp))
        (fun item a => head?_gap_append_ne hw (by decide) (by decide)
          (head?_text_append_ne hw (by decide) item a))
        (fun item hitem item' hitem' a b ha hb h => ih item hitem (hitems' item' hitem') ha hb h)
        ha hb h
      exact ⟨rfl, hab⟩
    | _ => exact nomatch hkind
  | object hkeys hvalues ih =>
    have hkind := ctorIdx_eq_of_text_append hw h
    cases hu with
    | object hkeys' hvalues' =>
      rw [w.text_object, w.text_object] at h
      -- a member starts with the quote of its key, so an object that goes on does not close
      have hquote : ∀ (m : String × Json) a,
          (w.key m.1 ++ ':' :: (w.pad ++ w.text (level + 1) m.2) ++ a).head? ≠ some '\x7d' := by
        intro m a
        obtain ⟨cs, hcs⟩ := hw.key_quote m.1
        simp [hcs]
      obtain ⟨rfl, hab⟩ := bracketed_append_inj (follows_comma hw)
        (fun _ => follows_close hw (.inr rfl))
        (fun a => head?_gap_append_ne hw (by decide) (by decide) (by simp))
        (fun m a => head?_gap_append_ne hw (by decide) (by decide) (hquote m a))
        (fun m hm m' hm' a b ha hb h => by
          simp only [List.append_assoc, List.cons_append] at h
          obtain ⟨hkey, htext⟩ := hw.key_inj (hkeys m hm) (hkeys' m' hm') h
          obtain ⟨hvalue, hab⟩ := ih m hm (hvalues' m' hm') ha hb htext
          exact ⟨Prod.ext hkey hvalue, hab⟩)
        ha hb h
      exact ⟨rfl, hab⟩
    | _ => exact nomatch hkind

/-- Different values have different texts. -/
theorem text_inj (level : ℕ) (hw : w.Readable admits apart) {v u : Json} (hv : v.Spelled admits)
    (hu : u.Spelled admits) (h : w.text level v = w.text level u) : v = u :=
  (text_append_inj hw hv hu (follows_nil hw) (follows_nil hw) (congrArg (· ++ []) h)).1

end Writer

/-! ## The forms of JSON -/

/-- Where every string is admitted, every value is spelled so. -/
theorem spelled_of_forall {admits : String → Prop} (h : ∀ s, admits s) (v : Json) :
    v.Spelled admits := by
  match v with
  | .null => exact .null
  | .bool b => exact .bool b
  | .number n => exact .number n
  | .string s => exact .string (h s)
  | .array items => exact .array fun item _ => spelled_of_forall h item
  | .object members => exact .object (fun m _ => h m.1) fun m _ => spelled_of_forall h m.2
termination_by v
decreasing_by
  -- items and values of members are smaller than the value that they are in
  · have hlt := List.sizeOf_lt_of_mem ‹_ ∈ items›
    simp only [Json.array.sizeOf_spec]
    omega
  · have hlt := List.sizeOf_lt_of_mem ‹_ ∈ members›
    rcases m with ⟨key, value⟩
    simp only [Prod.mk.sizeOf_spec, Json.object.sizeOf_spec] at hlt ⊢
    omega

theorem compactItems_eq_map (items : List Json) : compactItems items = items.map compact := by
  induction items with
  | nil => rfl
  | cons item items ih => rw [compactItems, ih, List.map_cons]

theorem compactMembers_eq_map (members : List (String × Json)) :
    compactMembers members = members.map fun m => quoted m.1 ++ ":" ++ m.2.compact := by
  induction members with
  | nil => rfl
  | cons m members ih => rw [compactMembers, ih, List.map_cons]

variable (marks : Marks) (level : ℕ)

theorem layoutItems_eq_map (items : List Json) :
    layoutItems marks level items = items.map (layout marks level) := by
  induction items with
  | nil => rfl
  | cons item items ih => rw [layoutItems, ih, List.map_cons]

theorem layoutMembers_eq_map (members : List (String × Json)) :
    layoutMembers marks level members =
      members.map fun m => marks.key m.1 ++ ": " ++ m.2.layout marks level := by
  induction members with
  | nil => rfl
  | cons m members ih => rw [layoutMembers, ih, List.map_cons]

/-- A line break and two blanks per level. -/
def lineGap (level : ℕ) : List Char :=
  '\n' :: List.replicate (2 * level) ' '

theorem toList_joinWith_comma (opening closing : Char) (entries : List String) :
    opening :: ((joinWith "," entries).toList ++ [closing]) =
      bracketed [] [] closing opening (entries.map String.toList) := by
  rw [toList_joinWith]
  cases entries with
  | nil => rfl
  | cons entry entries =>
    have hjoin := intercalate_eq_moreEntries [] closing [] [] entry.toList
      (entries.map String.toList)
    simp only [List.nil_append, List.map_id'] at hjoin
    rw [List.map_cons, bracketed]
    exact congrArg _ hjoin

theorem toList_enclose (opening closing : Char) (entries : List String) :
    (enclose (String.singleton opening) (String.singleton closing) level entries).toList =
      bracketed (lineGap (level + 1)) (lineGap level) closing opening
        (entries.map String.toList) := by
  cases entries with
  | nil => simp [enclose, bracketed]
  | cons entry entries =>
    have hjoin := intercalate_eq_moreEntries (lineGap level) closing ['\n']
      (List.replicate (2 * (level + 1)) ' ') entry.toList (entries.map String.toList)
    have htext : (enclose (String.singleton opening) (String.singleton closing) level
        (entry :: entries)).toList = opening :: '\n' :: ([',', '\n'].intercalate
          ((entry.toList :: entries.map String.toList).map
            (List.replicate (2 * (level + 1)) ' ' ++ ·)) ++ (lineGap level ++ [closing])) := by
      simp [enclose, toList_joinWith, lineGap, indentation, Function.comp_def]
    rw [htext, hjoin]
    rfl

/-- The one-line form. -/
def compactWriter : Writer where
  text _ v := v.compact.toList
  string s := (quoted s).toList
  key s := (quoted s).toList
  gap _ := []
  pad := []
  text_null _ := by rw [compact]
  text_bool _ b := by rw [compact]
  text_number _ n := by rw [compact]
  text_string _ s := by rw [compact]
  text_array _ items := by
    have hmap : items.map (fun item => item.compact.toList) =
        (compactItems items).map String.toList := by
      rw [compactItems_eq_map, List.map_map]
      rfl
    rw [compact, hmap, ← toList_joinWith_comma]
    simp
  text_object _ members := by
    have hmap : (members.map fun m => (quoted m.1).toList ++ ':' :: ([] ++ m.2.compact.toList)) =
        (compactMembers members).map String.toList := by
      rw [compactMembers_eq_map, List.map_map]
      simp
    rw [compact, hmap, ← toList_joinWith_comma]
    simp

/-- A form over several lines in which only strings and keys are open. -/
def layoutWriter (string key : String → String) : Writer where
  text level v := (v.layout ⟨"null", id, id, string, key⟩ level).toList
  string s := (string s).toList
  key s := (key s).toList
  gap := lineGap
  pad := [' ']
  text_null _ := by rw [layout]
  text_bool _ b := by simp only [layout, id_eq]
  text_number _ n := by simp only [layout, id_eq]
  text_string _ s := by rw [layout]
  text_array level items := by
    rw [layout, layoutItems_eq_map]
    refine (toList_enclose level '[' ']' _).trans ?_
    rw [List.map_map]
    rfl
  text_object level members := by
    rw [layout, layoutMembers_eq_map]
    refine (toList_enclose level '\x7b' '\x7d' _).trans ?_
    rw [List.map_map]
    simp [Function.comp_def]

variable {string key : String → String}

@[simp]
theorem compactWriter_string (s : String) : compactWriter.string s = (quoted s).toList := by
  simp only [compactWriter]

@[simp]
theorem compactWriter_key (s : String) : compactWriter.key s = (quoted s).toList := by
  simp only [compactWriter]

@[simp]
theorem layoutWriter_string (s : String) :
    (layoutWriter string key).string s = (string s).toList := rfl

@[simp]
theorem layoutWriter_key (s : String) : (layoutWriter string key).key s = (key s).toList := rfl

/-- Escaped strings end at the first quote that is not escaped. -/
theorem quoted_append_inj {s t : String} {a b : List Char}
    (h : (quoted s).toList ++ a = (quoted t).toList ++ b) : s = t ∧ a = b := by
  rw [toList_quoted, toList_quoted] at h
  obtain ⟨body, hbody, hread⟩ := readString_encode s.toList a
  obtain ⟨body', hbody', hread'⟩ := readString_encode t.toList b
  rw [hbody, hbody'] at h
  obtain rfl := (List.cons.inj h).2
  -- the same text is read as the one string and as the other
  have hboth := Option.some.inj (hread.symm.trans hread')
  rw [Prod.mk.injEq] at hboth
  exact ⟨String.toList_injective hboth.1, hboth.2⟩

theorem exists_toList_quoted (s : String) : ∃ cs, (quoted s).toList = '"' :: cs :=
  ⟨s.toList.flatMap Quoted.escape ++ ['"'], by rw [toList_quoted, Quoted.encode, List.cons_append]⟩

/-- A way to write values that escapes strings and keys can be read whatever is in them. -/
theorem Writer.readable_of_quoted {w : Writer}
    (hgap : ∀ level, ∀ c ∈ w.gap level, c = '\n' ∨ c = ' ')
    (hstring : ∀ s, w.string s = (quoted s).toList) (hkey : ∀ s, w.key s = (quoted s).toList) :
    w.Readable (fun _ => True) (fun _ => True) where
  apart_nil := trivial
  apart_comma _ _ := trivial
  apart_close _ _ _ _ _ := trivial
  gap_blank := hgap
  string_quote s := hstring s ▸ exists_toList_quoted s
  key_quote s := hkey s ▸ exists_toList_quoted s
  string_inj _ _ _ _ h := quoted_append_inj (by rwa [hstring, hstring] at h)
  key_inj {s t a b} _ _ h := by
    rw [hkey, hkey] at h
    obtain ⟨hst, hab⟩ := quoted_append_inj h
    exact ⟨hst, List.append_cancel_left (List.cons.inj hab).2⟩

/-- One-line texts of different values are different. -/
theorem compact_injective : Function.Injective compact := by
  intro v u h
  have hw : compactWriter.Readable (fun _ => True) (fun _ => True) :=
    Writer.readable_of_quoted nofun compactWriter_string compactWriter_key
  exact Writer.text_inj 0 hw (spelled_of_forall (fun _ => trivial) v)
    (spelled_of_forall (fun _ => trivial) u) (congrArg String.toList h)

theorem lineGap_blank (level : ℕ) : ∀ c ∈ lineGap level, c = '\n' ∨ c = ' ' := by
  intro c hc
  rcases List.mem_cons.mp hc with hline | hspaces
  · exact .inl hline
  · exact .inr (List.eq_of_mem_replicate hspaces)

/-- Texts over several lines of different values are different. -/
theorem indented_injective : Function.Injective indented := by
  intro v u h
  have hw : (layoutWriter quoted quoted).Readable (fun _ => True) (fun _ => True) :=
    Writer.readable_of_quoted lineGap_blank layoutWriter_string layoutWriter_key
  exact Writer.text_inj 0 hw (spelled_of_forall (fun _ => trivial) v)
    (spelled_of_forall (fun _ => trivial) u) (congrArg String.toList h)

end EdgeBundle.Json
