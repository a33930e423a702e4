import EdgeBundle.Text.Width

/-!
# Character boundaries

A byte offset of a text is a boundary if only whole characters lie before it. A cut at a boundary
gives the characters on both sides of it.

## Main statements

* `takeBytes_append` and `dropBytes_append`: a cut at the end of a prefix gives the prefix and what
  follows it.
* `IsBoundary.exists_between`: the text between the end of a prefix and a later boundary.
-/

namespace EdgeBundle

/-! ## Widths -/

@[simp]
theorem utf8ByteSize_ofList (cs : List Char) : (String.ofList cs).utf8ByteSize = utf8Width cs := by
  induction cs with
  | nil => simp
  | cons c cs ih =>
    rw [String.ofList_cons, String.utf8ByteSize_append, String.utf8ByteSize_singleton, ih,
      utf8Width_cons]

@[simp]
theorem utf8Width_toList (s : String) : utf8Width s.toList = s.utf8ByteSize := by
  rw [← utf8ByteSize_ofList, String.ofList_toList]

/-- Every character takes at least one byte. -/
theorem utf8Width_eq_zero_iff {cs : List Char} : utf8Width cs = 0 ↔ cs = [] := by
  cases cs with
  | nil => simp
  | cons c cs =>
    have := c.utf8Size_pos
    simp only [utf8Width_cons, reduceCtorEq, iff_false]
    omega

/-! ## Cuts -/

private theorem charsBefore_go_append (count : Nat) (before after : List Char) :
    charsBefore.go count (utf8Width before) (before ++ after) = count + before.length := by
  induction before generalizing count with
  | nil => cases after <;> simp [charsBefore.go]
  | cons c before ih =>
    have hpos : ¬ c.utf8Size + utf8Width before = 0 := by
      have := c.utf8Size_pos
      omega
    rw [utf8Width_cons, List.cons_append, charsBefore.go, if_neg hpos, Nat.add_sub_cancel_left, ih,
      List.length_cons]
    omega

/-- The characters before the end of a prefix are those of the prefix. -/
theorem charsBefore_append (before after : List Char) :
    charsBefore (utf8Width before) (before ++ after) = before.length := by
  rw [charsBefore, charsBefore_go_append, Nat.zero_add]

@[simp]
theorem takeBytes_append (before after : List Char) :
    takeBytes (utf8Width before) (before ++ after) = before := by
  rw [takeBytes, charsBefore_append, List.take_left]

@[simp]
theorem dropBytes_append (before after : List Char) :
    dropBytes (utf8Width before) (before ++ after) = after := by
  rw [dropBytes, charsBefore_append, List.drop_left]

@[simp]
theorem takeBytes_zero (cs : List Char) : takeBytes 0 cs = [] :=
  takeBytes_append [] cs

/-- A text starts with its first line. -/
theorem lineAt_zero (cs : List Char) : lineAt cs 0 = 1 := by
  rw [lineAt, takeBytes_zero, List.count_nil]

/-- A text without newlines is one line. -/
theorem lineAt_of_newline_not_mem {cs : List Char} (h : '\n' ∉ cs) (offset : Nat) :
    lineAt cs offset = 1 := by
  rw [lineAt, takeBytes, List.count_eq_zero.mpr fun hmem => h (List.mem_of_mem_take hmem)]

/-- Of two prefixes of a text the wider one starts with the other. -/
theorem exists_append_of_width_le {as bs cs ds : List Char} (h : as ++ bs = cs ++ ds)
    (hle : utf8Width as ≤ utf8Width cs) : ∃ mid, cs = as ++ mid ∧ bs = mid ++ ds := by
  rcases List.append_eq_append_iff.mp h with ⟨mid, rfl, rfl⟩ | ⟨mid, rfl, rfl⟩
  · exact ⟨mid, rfl, rfl⟩
  · -- the other prefix has no more characters, so the two are the same
    rw [utf8Width_append] at hle
    obtain rfl : mid = [] := utf8Width_eq_zero_iff.mp (by omega)
    exact ⟨[], by simp, rfl⟩

/-- A cut inside a part of a text cuts the part. -/
theorem exists_append_of_inside {before word rest as bs : List Char}
    (h : before ++ (word ++ rest) = as ++ bs) (hlt : utf8Width before < utf8Width as)
    (hlt' : utf8Width as < utf8Width (before ++ word)) :
    ∃ x y, x ≠ [] ∧ y ≠ [] ∧ word = x ++ y ∧ as = before ++ x ∧ bs = y ++ rest := by
  obtain ⟨x, rfl, hrest⟩ := exists_append_of_width_le h (Nat.le_of_lt hlt)
  rw [utf8Width_append] at hlt hlt'
  rw [utf8Width_append] at hlt'
  obtain ⟨y, rfl, rfl⟩ := exists_append_of_width_le hrest.symm (by omega)
  rw [utf8Width_append] at hlt'
  refine ⟨x, y, ?_, ?_, rfl, rfl, rfl⟩
  · rintro rfl
    exact Nat.lt_irrefl _ hlt
  · rintro rfl
    exact Nat.lt_irrefl _ hlt'

/-! ## Boundaries -/

/-- Only whole characters of the text lie before byte `offset`. -/
def IsBoundary (cs : List Char) (offset : Nat) : Prop :=
  ∃ before after, cs = before ++ after ∧ utf8Width before = offset

namespace IsBoundary

variable {cs : List Char} {offset : Nat}

theorem zero (cs : List Char) : IsBoundary cs 0 :=
  ⟨[], cs, rfl, rfl⟩

theorem le_width (h : IsBoundary cs offset) : offset ≤ utf8Width cs := by
  obtain ⟨before, after, rfl, rfl⟩ := h
  rw [utf8Width_append]
  exact Nat.le_add_right _ _

/-- What lies between the end of a prefix and a later boundary. -/
theorem exists_between {before rest : List Char} (h : IsBoundary (before ++ rest) offset)
    (hle : utf8Width before ≤ offset) :
    ∃ between after, rest = between ++ after ∧ utf8Width before + utf8Width between = offset := by
  obtain ⟨before', rest', heq, rfl⟩ := h
  obtain ⟨between, rfl, rfl⟩ := exists_append_of_width_le heq hle
  exact ⟨between, rest', rfl, (utf8Width_append _ _).symm⟩

end IsBoundary

end EdgeBundle
