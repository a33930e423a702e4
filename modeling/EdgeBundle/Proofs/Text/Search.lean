import EdgeBundle.Text.Search
import Mathlib.Data.List.Infix

/-!
# Substrings

What the searches in texts find, and what joined texts are made of.

## Main statements

* `dropHead?_eq_some_iff`, `containsText_iff`, `afterLast?_eq_none_iff`: one search each.
* `eq_append_of_afterLast?` and `afterLast?_append`: what follows an occurrence ends the text.
* `mem_intercalate`: what is in joined texts.
-/

namespace EdgeBundle

theorem dropHead?_eq_some_iff {head text rest : List Char} :
    dropHead? head text = some rest ↔ text = head ++ rest := by
  rw [dropHead?]
  split
  next h =>
    obtain ⟨rest', rfl⟩ := List.isPrefixOf_iff_prefix.mp h
    rw [List.drop_left, Option.some.injEq, List.append_right_inj]
  next h =>
    refine iff_of_false (by simp) ?_
    rintro rfl
    exact h (List.isPrefixOf_iff_prefix.mpr (List.prefix_append head rest))

theorem containsText_iff {needle text : List Char} :
    containsText needle text = true ↔ needle <:+: text := by
  induction text with
  | nil => rw [containsText, List.isEmpty_iff, List.infix_nil]
  | cons c cs ih =>
    rw [containsText, Bool.or_eq_true, List.isPrefixOf_iff_prefix, ih, List.infix_cons_iff]

/-- Nothing follows the last occurrence exactly if there is none. -/
theorem afterLast?_eq_none_iff {needle text : List Char} :
    afterLast? needle text = none ↔ ¬ needle <:+: text := by
  have hhead (cs : List Char) : dropHead? needle cs = none ↔ ¬ needle <+: cs := by
    rw [dropHead?, ← List.isPrefixOf_iff_prefix]
    split <;> simp_all
  induction text with
  | nil => rw [afterLast?, hhead, List.prefix_nil, List.infix_nil]
  | cons c cs ih =>
    rw [afterLast?, List.infix_cons_iff, not_or, ← hhead]
    cases hrest : afterLast? needle cs with
    | none => simp [ih.mp hrest]
    | some rest =>
      have hinside : needle <:+: cs := by
        by_contra hnot
        cases hrest.symm.trans (ih.mpr hnot)
      simp [hinside]

/-- What follows the last occurrence ends the text after one. -/
theorem eq_append_of_afterLast? {needle text rest : List Char}
    (h : afterLast? needle text = some rest) : ∃ before, text = before ++ needle ++ rest := by
  induction text with
  | nil => exact ⟨[], dropHead?_eq_some_iff.mp h⟩
  | cons c cs ih =>
    rw [afterLast?] at h
    cases hrest : afterLast? needle cs with
    | none =>
      rw [hrest] at h
      exact ⟨[], dropHead?_eq_some_iff.mp h⟩
    | some found =>
      rw [hrest] at h
      obtain ⟨before, hcs⟩ := ih (hrest.trans h)
      exact ⟨c :: before, congrArg (c :: ·) hcs⟩

/-- What follows an occurrence is found if no other one starts later. -/
theorem afterLast?_append {needle rest : List Char} (before : List Char)
    (h : ¬ needle <:+: (needle ++ rest).tail) :
    afterLast? needle (before ++ (needle ++ rest)) = some rest := by
  have hhead : dropHead? needle (needle ++ rest) = some rest := dropHead?_eq_some_iff.mpr rfl
  induction before with
  | nil =>
    rw [List.nil_append]
    cases htext : needle ++ rest with
    | nil => rw [afterLast?, ← htext, hhead]
    | cons c cs =>
      rw [htext, List.tail_cons] at h
      rw [afterLast?, afterLast?_eq_none_iff.mpr h, ← htext]
      exact hhead
  | cons c before ih => rw [List.cons_append, afterLast?, ih]

/-- What is in joined texts is in one of them or between them. -/
theorem mem_intercalate {α : Type} {separator : List α} {texts : List (List α)} {a : α}
    (h : a ∈ separator.intercalate texts) : a ∈ separator ∨ ∃ text ∈ texts, a ∈ text := by
  match texts with
  | [] => exact absurd h List.not_mem_nil
  | [text] =>
    rw [List.intercalate_singleton] at h
    exact .inr ⟨text, List.mem_cons_self, h⟩
  | text :: next :: texts =>
    rw [List.intercalate_cons_cons, List.mem_append, List.mem_append] at h
    rcases h with (h | h) | h
    · exact .inr ⟨text, List.mem_cons_self, h⟩
    · exact .inl h
    · refine (mem_intercalate h).imp_right ?_
      rintro ⟨later, hlater, hmem⟩
      exact ⟨later, List.mem_cons_of_mem text hlater, hmem⟩

end EdgeBundle
