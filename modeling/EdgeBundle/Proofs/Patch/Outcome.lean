import EdgeBundle.Proofs.Patch.Guard

/-!
# What the default patches change

The first patch puts the guard around one call or leaves the text alone, and says which. The second
one takes out whole lines of what the first one leaves, and says how many. All else stays as it is.

## Main definitions

* `TrapLine`: lines that do nothing but install the handler for stray errors.
* `ServeOutcome`: what the first patch makes of a text.

## Main statements

* `serveOutcome_apply`: what the first patch does, by what it says.
* `applyAll_defaults_changes`: what both patches change.
-/

namespace EdgeBundle.Patch

/-! ## The guard -/

/-- What the first patch makes of a text, by what it says of it. -/
inductive ServeOutcome (text : List Char) : PatchStatus → List Char → Prop
  /-- The guard is put around one call, which has the given head and tail. -/
  | applied {before call after out : List Char} (hunmarked : ¬ guardText.toList <:+: text)
      (hguards : Guards text before call after out) (hhead : callHead <+: call)
      (htail : callTail <:+ call) : ServeOutcome text (.applied 1) out
  /-- The head of the guard stands in the text, which is left alone. -/
  | alreadyApplied (hmarked : guardText.toList <:+: text) : ServeOutcome text .alreadyApplied text
  /-- The parts of the anchor do not stand in the text in order, and it is left alone. -/
  | anchorMissing (hunmarked : ¬ guardText.toList <:+: text) (hparts : ¬ InOrder serveParts text) :
      ServeOutcome text .anchorMissing text

/-- The first patch does what it says. -/
theorem serveOutcome_apply (text : List Char) :
    ServeOutcome text (guardServe.apply text).2 (guardServe.apply text).1 := by
  by_cases hmarked : guardText.toList <:+: text
  · rw [Patch.apply, if_pos (isMarked_guardServe_iff.mpr hmarked)]
    exact .alreadyApplied hmarked
  by_cases hparts : InOrder serveParts text
  -- an unmarked text with all parts in order is not settled
  · have hsettled : ¬ IsSettled text := by
      rw [IsSettled, not_or, not_not]
      exact ⟨hmarked, hparts⟩
    obtain ⟨out, hout, -⟩ := apply_guardServe_of_not_isSettled hsettled
    obtain ⟨-, before, call, after, hguards⟩ := guards_of_applied hout
    rw [hout]
    exact .applied hmarked hguards hguards.isCall.isPrefix hguards.isCall.isSuffix
  · rw [Patch.apply, if_neg fun h => hmarked (isMarked_guardServe_iff.mp h),
      matchesIn_guardServe_eq_nil_iff.mpr hparts]
    exact .anchorMissing hmarked hparts

/-! ## Lines -/

/-- A line that does nothing but install the handler: the call with blanks around it and perhaps a
semicolon after it, and a line end. -/
def TrapLine (line : List Char) : Prop :=
  ∃ code ending, TrapCode code ∧ ending ∈ lineEnds ∧ line = code ++ ending

instance (line : List Char) : Decidable (TrapLine line) :=
  decidable_of_iff _ isTrapLine_iff

theorem decide_trapLine (line : List Char) : decide (TrapLine line) = isTrapLine line := by
  rw [Bool.eq_iff_iff, decide_eq_true_iff]
  exact isTrapLine_iff.symm

/-- The second patch takes out lines, and says how many. -/
theorem apply_removeErrorTrap_eq (text : List Char) :
    removeErrorTrap.apply text =
      (((lines text).filter fun l => ¬ TrapLine l).flatten,
        if (lines text).countP (TrapLine ·) = 0 then .anchorMissing
        else .applied ((lines text).countP (TrapLine ·))) := by
  simp only [apply_removeErrorTrap, decide_not, decide_trapLine]

/-! ## Both patches -/

/-- The default patches put the guard around one call, if the first one says so, and take out the
lines with the call of the handler, as many as the second one says. Every other line stays. -/
theorem applyAll_defaults_changes {ε : Type} (text : List Char) :
    ∃ status guarded out count,
      (applyAll defaults text : Logged ε _).result =
        .ok (out, [⟨"guard-serve", status⟩,
          ⟨"remove-error-trap", if count = 0 then .anchorMissing else .applied count⟩]) ∧
      ServeOutcome text status guarded ∧
      out = ((lines guarded).filter fun l => ¬ TrapLine l).flatten ∧
      count = (lines guarded).countP (TrapLine ·) ∧
      (out = guarded ↔ count = 0) := by
  refine ⟨_, _, _, _, ?_, serveOutcome_apply text, rfl, rfl, ?_⟩
  · rw [result_applyAll_defaults, apply_removeErrorTrap_eq]
    rfl
  · rw [flatten_filter_lines_eq_iff, List.countP_eq_zero]
    simp

end EdgeBundle.Patch
