import EdgeBundle.Proofs.Module.Edit
import EdgeBundle.Proofs.Patch.Guard

/-!
# The default patches as edits

The default patches put the guard around one call and take out lines, and change nothing else. The
lines that go are the lines of the text before the call is guarded: the guard makes no line that
goes, and hides none, since there are braces of the call or the guard on every line that it touches.

## Main definitions

* `Fenced`: texts with a character that no line with the call of the handler has.
* `trapEdits` and `untrapped`: the lines that go, and what is left, in a part of a text.
* `DefaultEdit`: what the default patches change in a text.

## Main statements

* `trapEdits_append` and `untrapped_append`: a text cut in the middle of a fenced line.
* `exists_defaultEdits`: the default patches make exactly their edits.
-/

namespace EdgeBundle.Patch

open Edit (Splices)

/-! ## Fences -/

/-- Characters of the lines that go. -/
def trapChars : List Char :=
  '\n' :: '\r' :: '\t' :: ' ' :: ';' :: trapCall

/-- There is a character in the text that is on no line that goes. -/
def Fenced (text : List Char) : Prop :=
  ∃ c ∈ text, c ∉ trapChars

/-- There is such a character on the line with which the text starts. -/
def FencedHead (text : List Char) : Prop :=
  ∃ part, part <+: text ∧ '\n' ∉ part ∧ Fenced part

/-- There is such a character on the line with which the text ends. -/
def FencedLast (text : List Char) : Prop :=
  ∃ part, part <:+ text ∧ '\n' ∉ part ∧ Fenced part

theorem mem_trapChars {l : List Char} (h : isTrapLine l = true) {c : Char} (hc : c ∈ l) :
    c ∈ trapChars := by
  have hchars : '\t' :: ' ' :: ';' :: trapCall ⊆ trapChars := by decide
  have hends : ∀ ending ∈ lineEnds, ending ⊆ trapChars := by decide
  obtain ⟨code, ending, hcode, hending, rfl⟩ := isTrapLine_iff.mp h
  rcases List.mem_append.mp hc with hc | hc
  · exact hchars (hcode.mem_chars hc)
  · exact hends ending hending hc

namespace Fenced

variable {as bs l : List Char}

theorem mono (h : Fenced as) (hsub : as ⊆ bs) : Fenced bs := by
  obtain ⟨c, hc, hnot⟩ := h
  exact ⟨c, hsub hc, hnot⟩

theorem isTrapLine_eq_false (h : Fenced l) : isTrapLine l = false := by
  obtain ⟨c, hc, hnot⟩ := h
  exact Bool.eq_false_iff.mpr fun htrap => hnot (mem_trapChars htrap hc)

theorem not_nil : ¬ Fenced [] := nofun

end Fenced

theorem FencedHead.append_right {as : List Char} (h : FencedHead as) (bs : List Char) :
    FencedHead (as ++ bs) := by
  obtain ⟨part, hpart, hline, hfenced⟩ := h
  exact ⟨part, hpart.trans (List.prefix_append as bs), hline, hfenced⟩

/-- A text starts with a fenced line if there is such a character before its first newline. -/
theorem FencedHead.exists_lines {text : List Char} (h : FencedHead text) :
    ∃ l ls, lines text = l :: ls ∧ Fenced l := by
  obtain ⟨part, ⟨rest, rfl⟩, hline, hfenced⟩ := h
  have hne : part ≠ [] := by
    rintro rfl
    exact Fenced.not_nil hfenced
  exact ⟨_, _, lines_append_of_not_mem hline hne rest, hfenced.mono (List.subset_append_left _ _)⟩

/-- The line at the end of a text does not reach back beyond a newline. -/
theorem FencedLast.of_line {body rest : List Char} (h : FencedLast (body ++ '\n' :: rest)) :
    FencedLast rest := by
  obtain ⟨part, ⟨head, heq⟩, hline, hfenced⟩ := h
  rw [← List.append_nil part] at heq
  rcases append_newline_cases hline heq.symm with ⟨_, -, hnil⟩ | ⟨mid, -, rfl⟩
  · exact absurd hnil.symm (by simp)
  · exact ⟨part, ⟨mid, by rw [List.append_nil]⟩, hline, hfenced⟩

/-! ## Parts of a text -/

/-- Whether a line of a part of a text is taken out. The first line of the part may go on to the
left of it, and the last line to the right, unless `first` and `last` say that they do not. -/
def takesOut (first last : Bool) (l : List Char) : Bool :=
  first && (last || l.getLast? == some '\n') && isTrapLine l

/-- The edits that take out lines of a part that starts at byte `offset`. -/
def trapEdits (first last : Bool) (offset : Nat) : List (List Char) → List Edit
  | [] => []
  | l :: ls =>
    let later := trapEdits true last (offset + utf8Width l) ls
    if takesOut first last l then ⟨offset, offset + utf8Width l, ""⟩ :: later else later

/-- What is left of a part of a text. -/
def untrapped (first last : Bool) : List (List Char) → List Char
  | [] => []
  | l :: ls => (if takesOut first last l then [] else l) ++ untrapped true last ls

section Parts

variable {first last : Bool} {offset : Nat} {l : List Char} {ls : List (List Char)}

theorem takesOut_of_fenced (h : Fenced l) : takesOut first last l = false := by
  rw [takesOut, h.isTrapLine_eq_false, Bool.and_false]

/-- Whether the line at the end of a part goes on does not matter for a line with a newline. -/
theorem takesOut_line (body : List Char) :
    takesOut first last (body ++ ['\n']) = takesOut first false (body ++ ['\n']) := by
  simp [takesOut]

theorem trapEdits_of_not_first :
    trapEdits false last offset ls =
      trapEdits true last (offset + utf8Width (ls.headD [])) ls.tail := by
  cases ls <;> rfl

theorem untrapped_of_not_first :
    untrapped false last ls = ls.headD [] ++ untrapped true last ls.tail := by
  cases ls <;> rfl

theorem trapEdits_of_fenced (h : Fenced l) :
    trapEdits first last offset (l :: ls) = trapEdits true last (offset + utf8Width l) ls := by
  rw [trapEdits, takesOut_of_fenced h, if_neg (by decide)]

theorem untrapped_of_fenced (h : Fenced l) :
    untrapped first last (l :: ls) = l ++ untrapped true last ls := by
  rw [untrapped, takesOut_of_fenced h, if_neg (by decide)]

theorem splices_trapEdits :
    Splices offset ls.flatten (trapEdits first last offset ls) (untrapped first last ls) := by
  induction ls generalizing first offset with
  | nil => exact .done
  | cons l ls ih =>
    rw [trapEdits, untrapped, List.flatten_cons]
    split
    · exact @Splices.edit offset [] l _ _ _ _ rfl rfl ih
    · exact Splices.append .done ih rfl

/-- A text that is cut in the middle of a fenced line, which stays on both sides. -/
theorem trapEdits_append_lined (hls : Lined ls) {bs : List Char}
    (h : FencedLast ls.flatten ∨ FencedHead bs) :
    trapEdits first last offset (lines (ls.flatten ++ bs)) =
        trapEdits first false offset ls ++
          trapEdits false last (offset + utf8Width ls.flatten) (lines bs) ∧
      untrapped first last (lines (ls.flatten ++ bs)) =
        untrapped first false ls ++ untrapped false last (lines bs) := by
  -- all lines but the last of the first part are lines of the whole
  induction hls generalizing first offset with
  | nil =>
    obtain ⟨l, ls, hlines, hfenced⟩ := (h.resolve_left fun h => by
      obtain ⟨part, hpart, -, hfenced⟩ := h
      rw [List.flatten_nil, List.suffix_nil] at hpart
      exact Fenced.not_nil (hpart ▸ hfenced)).exists_lines
    rw [List.flatten_nil, List.nil_append, hlines, trapEdits_of_fenced hfenced,
      trapEdits_of_fenced hfenced, untrapped_of_fenced hfenced, untrapped_of_fenced hfenced]
    exact ⟨rfl, rfl⟩
  | @last l hl hne =>
    have hfenced : Fenced (l ++ (lines bs).headD []) := by
      rcases h with h | h
      · obtain ⟨part, hpart, -, hfenced⟩ := h
        rw [List.flatten_cons, List.flatten_nil, List.append_nil] at hpart
        exact hfenced.mono (List.Subset.trans hpart.subset (List.subset_append_left _ _))
      · obtain ⟨l', ls', hlines, hfenced⟩ := h.exists_lines
        rw [hlines]
        exact hfenced.mono (List.subset_append_right _ _)
    rw [List.flatten_cons, List.flatten_nil, List.append_nil, lines_append_of_not_mem hl hne,
      trapEdits_of_fenced hfenced, untrapped_of_fenced hfenced, trapEdits_of_not_first,
      untrapped_of_not_first]
    have hopen : takesOut first false l = false := by
      have hlast : l.getLast? ≠ some '\n' := fun h => hl (List.mem_of_getLast? h)
      simp [takesOut, hlast]
    rw [trapEdits, untrapped, hopen]
    simp [trapEdits, untrapped, Nat.add_assoc]
  | @line body ls hbody hls ih =>
    rw [List.flatten_cons, List.append_assoc, List.singleton_append] at h
    obtain ⟨hedits, hleft⟩ := @ih true (offset + utf8Width (body ++ ['\n'])) (h.imp_left .of_line)
    rw [List.flatten_cons, List.append_assoc, List.append_assoc, List.singleton_append,
      lines_line hbody, trapEdits, trapEdits, untrapped, untrapped, hedits, hleft, takesOut_line]
    split <;> simp [Nat.add_assoc]

/-- The lines that go when a text is cut in the middle of a fenced line. -/
theorem trapEdits_append {as bs : List Char} (h : FencedLast as ∨ FencedHead bs) :
    trapEdits first last offset (lines (as ++ bs)) =
      trapEdits first false offset (lines as) ++
        trapEdits false last (offset + utf8Width as) (lines bs) := by
  rw [← flatten_lines as] at h
  have hedits := (@trapEdits_append_lined first last offset _ (lined_lines as) bs h).1
  rwa [flatten_lines] at hedits

/-- What is left when a text is cut in the middle of a fenced line. -/
theorem untrapped_append {as bs : List Char} (h : FencedLast as ∨ FencedHead bs) :
    untrapped first last (lines (as ++ bs)) =
      untrapped first false (lines as) ++ untrapped false last (lines bs) := by
  rw [← flatten_lines as] at h
  have hleft := (@trapEdits_append_lined first last 0 _ (lined_lines as) bs h).2
  rwa [flatten_lines] at hleft

/-- Only lines with a newline go from a part that may go on. -/
theorem trapEdits_eq_nil (h : ∀ l ∈ ls, l.getLast? = some '\n' → isTrapLine l = false) :
    trapEdits first false offset ls = [] := by
  induction ls generalizing first offset with
  | nil => rfl
  | cons l ls ih =>
    have hkept : takesOut first false l = false := by
      by_cases hlast : l.getLast? = some '\n'
      · rw [takesOut, h l List.mem_cons_self hlast, Bool.and_false]
      · simp [takesOut, hlast]
    rw [trapEdits, hkept, if_neg (by decide), ih fun l hl => h l (List.mem_cons_of_mem _ hl)]

/-- Each edit takes out one line. -/
theorem mem_trapEdits {e : Edit} :
    e ∈ trapEdits true true offset ls ↔ ∃ xs line ys, ls = xs ++ line :: ys ∧
      isTrapLine line = true ∧
      e = ⟨offset + utf8Width xs.flatten, offset + utf8Width (xs.flatten ++ line), ""⟩ := by
  induction ls generalizing offset with
  | nil => simp [trapEdits]
  | cons l ls ih =>
    -- the line is taken out, or a later one at an offset that is moved on by its width
    have hhead : e ∈ trapEdits true true offset (l :: ls) ↔
        (isTrapLine l = true ∧ e = ⟨offset, offset + utf8Width l, ""⟩) ∨
          e ∈ trapEdits true true (offset + utf8Width l) ls := by
      rw [trapEdits, takesOut]
      split <;> simp_all
    rw [hhead, ih]
    constructor
    · rintro (⟨htrap, rfl⟩ | ⟨xs, line, ys, rfl, htrap, rfl⟩)
      · exact ⟨[], l, ls, rfl, htrap, rfl⟩
      · exact ⟨l :: xs, line, ys, rfl, htrap, by simp [Nat.add_assoc]⟩
    · rintro ⟨- | ⟨x, xs⟩, line, ys, heq, htrap, rfl⟩
      · obtain ⟨rfl, rfl⟩ := List.cons.inj heq
        exact .inl ⟨htrap, rfl⟩
      · obtain ⟨rfl, rfl⟩ := List.cons.inj heq
        exact .inr ⟨xs, line, ys, rfl, htrap, by simp [Nat.add_assoc]⟩

theorem untrapped_eq_filter :
    untrapped true true ls = (ls.filter fun l => !isTrapLine l).flatten := by
  induction ls with
  | nil => rfl
  | cons l ls ih =>
    rw [untrapped, ih, List.filter_cons, takesOut]
    cases isTrapLine l <;> rfl

end Parts

/-! ## The edits of the default patches -/

/-- The first patch guards the call after `before`. -/
def GuardsCall (text before call : List Char) : Prop :=
  ∃ n after out, guardServe.apply text = (out, .applied n) ∧ Guards text before call after out

/-- The line after `before` does nothing but install the handler. -/
def TrapLineAt (text before line : List Char) : Prop :=
  ∃ xs ys, lines text = xs ++ line :: ys ∧ before = xs.flatten ∧ isTrapLine line = true

/-- What the default patches change in a text. -/
inductive DefaultEdit (text : List Char) : Edit → Prop
  /-- The head of the guard is put in before the call. -/
  | openGuard {before call : List Char} (h : GuardsCall text before call) :
      DefaultEdit text ⟨utf8Width before, utf8Width before, guardHead⟩
  /-- The guard is closed after the call. -/
  | closeGuard {before call : List Char} (h : GuardsCall text before call) :
      DefaultEdit text ⟨utf8Width (before ++ call), utf8Width (before ++ call), guardEnd⟩
  /-- A line with the call of the handler is taken out. -/
  | trapLine {before line : List Char} (h : TrapLineAt text before line) :
      DefaultEdit text ⟨utf8Width before, utf8Width (before ++ line), ""⟩

theorem mem_trapEdits_lines {text : List Char} {e : Edit} :
    e ∈ trapEdits true true 0 (lines text) ↔ ∃ before line, TrapLineAt text before line ∧
      e = ⟨utf8Width before, utf8Width (before ++ line), ""⟩ := by
  simp only [mem_trapEdits, TrapLineAt, Nat.zero_add]
  constructor
  · rintro ⟨xs, line, ys, hlines, htrap, rfl⟩
    exact ⟨_, line, ⟨xs, ys, hlines, rfl, htrap⟩, rfl⟩
  · rintro ⟨_, line, ⟨xs, ys, hlines, rfl, htrap⟩, rfl⟩
    exact ⟨xs, line, ys, hlines, htrap, rfl⟩

theorem ServerCall.fencedHead {call : List Char} (h : ServerCall call) : FencedHead call :=
  ⟨callHead, h.isPrefix, by decide, '\x7b', by decide, by decide⟩

theorem ServerCall.fencedLast {call : List Char} (h : ServerCall call) : FencedLast call :=
  ⟨callTail, h.isSuffix, by decide, '\x7d', by decide, by decide⟩

theorem fencedHead_guardHead : FencedHead guardHead.toList := by
  refine ⟨guardText.toList, ?_, by decide, '\x7b', by decide, by decide⟩
  rw [guardHead, String.toList_append]
  exact List.prefix_append _ _

theorem fencedLast_guardEnd : FencedLast guardEnd.toList :=
  ⟨['\x7d'], ⟨['\n'], rfl⟩, by decide, '\x7d', by decide, by decide⟩

/-- No line goes with the guard, and nothing of the guard goes. -/
theorem untrapped_guardHead :
    untrapped false false (lines guardHead.toList) = guardHead.toList := by
  decide

theorem untrapped_guardEnd : untrapped false false (lines guardEnd.toList) = guardEnd.toList := by
  decide

/-- What is left of a guarded text: the lines go that go without the guard. -/
theorem Guards.untrapped_eq {text before call after out : List Char}
    (h : Guards text before call after out) :
    untrapped true true (lines out) =
      untrapped true false (lines before) ++ (guardHead.toList ++
        (untrapped false false (lines call) ++ (guardEnd.toList ++
          untrapped false true (lines after)))) := by
  rw [h.out_eq, untrapped_append (.inr (fencedHead_guardHead.append_right _)),
    untrapped_append (.inr (h.isCall.fencedHead.append_right _)),
    untrapped_append (.inl h.isCall.fencedLast), untrapped_append (.inl fencedLast_guardEnd),
    untrapped_guardHead, untrapped_guardEnd]

/-- The lines that go from a text whose call is guarded, part by part. -/
theorem Guards.trapEdits_eq {text before call after out : List Char}
    (h : Guards text before call after out) :
    trapEdits true true 0 (lines text) =
      trapEdits true false 0 (lines before) ++
        (trapEdits false false (utf8Width before) (lines call) ++
          trapEdits false true (utf8Width (before ++ call)) (lines after)) := by
  rw [h.text_eq, trapEdits_append (.inr (h.isCall.fencedHead.append_right _)),
    trapEdits_append (.inl h.isCall.fencedLast), Nat.zero_add, utf8Width_append]

/-- What is left of a part of a text is the part without the lines that go. -/
theorem splices_lines (first last : Bool) (offset : Nat) (text : List Char) :
    Splices offset text (trapEdits first last offset (lines text))
      (untrapped first last (lines text)) := by
  have h := @splices_trapEdits first last offset (lines text)
  rwa [flatten_lines] at h

/-- A text whose call is guarded, as its edits change it. -/
theorem Guards.exists_edits {text before call after out : List Char}
    (h : Guards text before call after out) :
    ∃ edits, (∀ e, e ∈ edits ↔ e = ⟨utf8Width before, utf8Width before, guardHead⟩ ∨
        e = ⟨utf8Width (before ++ call), utf8Width (before ++ call), guardEnd⟩ ∨
          e ∈ trapEdits true true 0 (lines text)) ∧
      Splices 0 text edits (untrapped true true (lines out)) := by
  -- the edits of each part, with what is put in between
  have hhead := Splices.insert (utf8Width before) guardHead
  have hend := Splices.insert (utf8Width (before ++ call)) guardEnd
  have hafter := hend.append (splices_lines false true _ after) rfl
  have hcall := (splices_lines false false _ call).append hafter (utf8Width_append before call)
  have hbefore := (splices_lines true false 0 before).append (hhead.append hcall rfl)
    (Nat.zero_add _).symm
  simp only [List.nil_append, utf8Width_nil, Nat.add_zero] at hbefore
  rw [← h.text_eq, ← h.untrapped_eq] at hbefore
  refine ⟨_, fun e => ?_, hbefore⟩
  rw [h.trapEdits_eq]
  simp only [List.mem_append, List.mem_singleton]
  tauto

theorem guardsCall_of_applied {text out : List Char} {n : Nat}
    (h : guardServe.apply text = (out, .applied n)) :
    ∃ before call after, GuardsCall text before call ∧ Guards text before call after out := by
  obtain ⟨-, before, call, after, hguards⟩ := guards_of_applied h
  exact ⟨before, call, after, ⟨n, after, out, h, hguards⟩, hguards⟩

/-- The default patches make exactly their edits. -/
theorem exists_defaultEdits (text : List Char) :
    ∃ edits, (∀ e, e ∈ edits ↔ DefaultEdit text e) ∧
      Splices 0 text edits (removeErrorTrap.apply (guardServe.apply text).1).1 := by
  rw [apply_removeErrorTrap, ← untrapped_eq_filter]
  by_cases hsettled : IsSettled text
  -- without a guard only lines go
  · obtain ⟨hsame, hstatus⟩ := apply_guardServe_of_isSettled hsettled
    have hnot {before call : List Char} : ¬ GuardsCall text before call := by
      rintro ⟨n, after, out, hout, -⟩
      rw [hout] at hstatus
      rcases hstatus with h | h <;> cases h
    rw [hsame]
    refine ⟨_, fun e => ?_, splices_lines true true 0 text⟩
    rw [mem_trapEdits_lines]
    constructor
    · rintro ⟨before, line, hline, rfl⟩
      exact .trapLine hline
    · rintro (hcall | hcall | hline)
      · exact absurd hcall hnot
      · exact absurd hcall hnot
      · exact ⟨_, _, hline, rfl⟩
  · obtain ⟨out, hout, -⟩ := apply_guardServe_of_not_isSettled hsettled
    obtain ⟨before, call, after, hcall, hguards⟩ := guardsCall_of_applied hout
    obtain ⟨edits, hedits, hsplices⟩ := hguards.exists_edits
    rw [hout]
    refine ⟨edits, fun e => ?_, hsplices⟩
    rw [hedits, mem_trapEdits_lines]
    constructor
    · rintro (rfl | rfl | ⟨before, line, hline, rfl⟩)
      · exact .openGuard hcall
      · exact .closeGuard hcall
      · exact .trapLine hline
    -- the call that is guarded is the one that was found
    · rintro (⟨_, _, _, -, hguards'⟩ | ⟨_, _, _, -, hguards'⟩ | hline)
      · obtain ⟨rfl, -⟩ := hguards'.unique hguards
        exact .inl rfl
      · obtain ⟨rfl, rfl⟩ := hguards'.unique hguards
        exact .inr (.inl rfl)
      · exact .inr (.inr ⟨_, _, hline, rfl⟩)

end EdgeBundle.Patch
