import EdgeBundle.Module.Edit
import EdgeBundle.Proofs.Text.Width

/-!
# Spliced text

Edits whose spans are whole characters, in order and apart, change a text only inside their spans.

## Main definitions

* `Edit.Ordered`: spans of whole characters, in order and apart.
* `Edit.Splices`: a text with the spans of edits replaced and all else kept.
* `Edit.StandsIn`: the replacement of an edit stands in such a text.

## Main statements

* `Edit.apply_start`: one edit at the start of a text.
* `Edit.splices_apply`: applying ordered edits replaces their spans and keeps all else.
* `Edit.Splices.standsIn`: the replacement of every edit stands in the result.
* `Edit.Splices.exists_around`: a part of the text on which no span lies stands in the result.
-/

namespace EdgeBundle.Edit

/-- The spans of the edits are whole characters of the text, in order and apart. -/
structure Ordered (cs : List Char) (edits : List Edit) : Prop where
  /-- A span does not end before it starts. -/
  start_le_stop : ∀ e ∈ edits, e.start ≤ e.stop
  /-- No span starts inside a character. -/
  isBoundary_start : ∀ e ∈ edits, IsBoundary cs e.start
  /-- No span ends inside a character. -/
  isBoundary_stop : ∀ e ∈ edits, IsBoundary cs e.stop
  /-- Every span ends before the next one starts. -/
  pairwise : edits.Pairwise fun a b => a.stop ≤ b.start

/-- The second text is the first one from byte `offset` on with the spans of the edits replaced and
all else kept in place. -/
inductive Splices : Nat → List Char → List Edit → List Char → Prop
  | done {offset : Nat} {cs : List Char} : Splices offset cs [] cs
  | edit {offset : Nat} {kept cut rest out : List Char} {e : Edit} {es : List Edit}
      (hstart : e.start = offset + utf8Width kept) (hstop : e.stop = e.start + utf8Width cut)
      (hrest : Splices e.stop rest es out) :
      Splices offset (kept ++ (cut ++ rest)) (e :: es) (kept ++ (e.replacement.toList ++ out))

namespace Ordered

variable {cs : List Char} {e : Edit} {es : List Edit}

theorem tail (h : Ordered cs (e :: es)) : Ordered cs es where
  start_le_stop x hx := h.start_le_stop x (List.mem_cons_of_mem _ hx)
  isBoundary_start x hx := h.isBoundary_start x (List.mem_cons_of_mem _ hx)
  isBoundary_stop x hx := h.isBoundary_stop x (List.mem_cons_of_mem _ hx)
  pairwise := h.pairwise.of_cons

theorem of_sublist {es' : List Edit} (h : Ordered cs es) (hsub : es'.Sublist es) :
    Ordered cs es' where
  start_le_stop x hx := h.start_le_stop x (hsub.mem hx)
  isBoundary_start x hx := h.isBoundary_start x (hsub.mem hx)
  isBoundary_stop x hx := h.isBoundary_stop x (hsub.mem hx)
  pairwise := h.pairwise.sublist hsub

end Ordered

/-- An edit at the start of a text replaces what it spans. -/
theorem apply_start (cut rest : List Char) (replacement : String) :
    Edit.apply [⟨0, utf8Width cut, replacement⟩] (cut ++ rest) = replacement.toList ++ rest := by
  rw [Edit.apply, applyFrom, applyFrom, Nat.sub_zero, Nat.sub_zero, takeBytes_zero,
    dropBytes_append, List.nil_append]

/-- Applying edits from the end of a prefix on, where no edit starts before that end. -/
theorem splices_applyFrom {before rest : List Char} {edits : List Edit}
    (h : Ordered (before ++ rest) edits) (hle : ∀ e ∈ edits, utf8Width before ≤ e.start) :
    Splices (utf8Width before) rest edits (applyFrom (utf8Width before) rest edits) := by
  induction edits generalizing before rest with
  | nil => exact .done
  | cons e es ih =>
    have hstart := hle e List.mem_cons_self
    have hstop := h.start_le_stop e List.mem_cons_self
    obtain ⟨kept, rest, rfl, hkept⟩ :=
      (h.isBoundary_start e List.mem_cons_self).exists_between hstart
    obtain ⟨cut, rest, rfl, hcut⟩ : ∃ cut after, rest = cut ++ after ∧
        utf8Width (before ++ kept) + utf8Width cut = e.stop := by
      refine IsBoundary.exists_between ?_ (by rw [utf8Width_append, hkept]; exact hstop)
      rw [List.append_assoc]
      exact h.isBoundary_stop e List.mem_cons_self
    rw [utf8Width_append, hkept] at hcut
    -- the rest of the edits apply to what follows the span
    have hwidth : utf8Width (before ++ kept ++ cut) = e.stop := by
      rw [utf8Width_append, utf8Width_append, hkept, hcut]
    have hrest : Splices e.stop rest es (applyFrom e.stop rest es) := by
      rw [← hwidth]
      refine ih (by simpa using h.tail) fun x hx => ?_
      rw [hwidth]
      exact (List.pairwise_cons.mp h.pairwise).1 x hx
    have htake : takeBytes (e.start - utf8Width before) (kept ++ (cut ++ rest)) = kept := by
      rw [← hkept, Nat.add_sub_cancel_left, takeBytes_append]
    have hdrop : dropBytes (e.stop - utf8Width before) (kept ++ (cut ++ rest)) = rest := by
      rw [← hcut, ← hkept, Nat.add_assoc, Nat.add_sub_cancel_left, ← utf8Width_append,
        ← List.append_assoc, dropBytes_append]
    rw [applyFrom, htake, hdrop, List.append_assoc]
    exact .edit hkept.symm hcut.symm hrest

/-- Applying ordered edits replaces their spans and keeps all else in place. -/
theorem splices_apply {cs : List Char} {edits : List Edit} (h : Ordered cs edits) :
    Splices 0 cs edits (Edit.apply edits cs) :=
  @splices_applyFrom [] cs edits h fun _ _ => Nat.zero_le _

/-- The replacement of the edit stands in the second text, between what comes of the first text
before the span and what comes of it after the span. -/
def StandsIn (cs : List Char) (edits : List Edit) (out : List Char) (e : Edit) : Prop :=
  ∃ earlier later before cut after before' after', edits = earlier ++ e :: later ∧
    cs = before ++ (cut ++ after) ∧ out = before' ++ (e.replacement.toList ++ after') ∧
    e.start = utf8Width before ∧ e.stop = e.start + utf8Width cut ∧
    Splices 0 before earlier before' ∧ Splices e.stop after later after'

/-- A spliced text is cut at the span of an edit. -/
theorem Splices.exists_split {offset : Nat} {cs out : List Char} {edits : List Edit} {e : Edit}
    (h : Splices offset cs edits out) (he : e ∈ edits) :
    ∃ earlier later before cut after before' after', edits = earlier ++ e :: later ∧
      cs = before ++ (cut ++ after) ∧ out = before' ++ (e.replacement.toList ++ after') ∧
      e.start = offset + utf8Width before ∧ e.stop = e.start + utf8Width cut ∧
      Splices offset before earlier before' ∧ Splices e.stop after later after' := by
  induction h with
  | done => cases he
  | @edit offset kept cut rest out first es hstart hstop hrest ih =>
    rcases List.mem_cons.mp he with rfl | he
    · exact ⟨[], es, kept, cut, rest, kept, out, rfl, rfl, rfl, hstart, hstop, .done, hrest⟩
    · obtain ⟨earlier, later, before, cut', after, before', after', rfl, rfl, rfl, hstart', hstop',
        hbefore, hafter⟩ := ih he
      refine ⟨first :: earlier, later, kept ++ (cut ++ before), cut', after,
        kept ++ (first.replacement.toList ++ before'), after', rfl, by simp, by simp, ?_, hstop',
        .edit hstart hstop hbefore, hafter⟩
      rw [hstart', hstop, hstart, utf8Width_append, utf8Width_append]
      omega

/-- The replacement of every edit stands in the spliced text. -/
theorem Splices.standsIn {cs out : List Char} {edits : List Edit} {e : Edit}
    (h : Splices 0 cs edits out) (he : e ∈ edits) : StandsIn cs edits out e := by
  obtain ⟨earlier, later, before, cut, after, before', after', hedits, hcs, hout, hstart, hstop,
    hbefore, hafter⟩ := h.exists_split he
  rw [Nat.zero_add] at hstart
  exact ⟨earlier, later, before, cut, after, before', after', hedits, hcs, hout, hstart, hstop,
    hbefore, hafter⟩

/-! ## Texts that are kept -/

namespace Splices

variable {offset : Nat} {cs out : List Char} {edits : List Edit} {e : Edit}

/-- Spans lie in the text. -/
theorem span_le (h : Splices offset cs edits out) (he : e ∈ edits) :
    offset ≤ e.start ∧ e.start ≤ e.stop ∧ e.stop ≤ offset + utf8Width cs := by
  obtain ⟨_, _, before, cut, after, _, _, -, rfl, -, hstart, hstop, -, -⟩ := h.exists_split he
  rw [utf8Width_append, utf8Width_append]
  omega

/-- Texts that are spliced one after the other. -/
theorem append {mid : Nat} {as bs out' : List Char} {es fs : List Edit}
    (h : Splices offset as es out) (h' : Splices mid bs fs out')
    (hmid : mid = offset + utf8Width as) : Splices offset (as ++ bs) (es ++ fs) (out ++ out') := by
  induction h with
  | done =>
    cases h' with
    | done => exact .done
    | @edit _ kept _ _ _ _ _ hstart hstop hrest =>
      rw [← List.append_assoc _ kept, ← List.append_assoc _ kept, List.nil_append]
      refine .edit ?_ hstop hrest
      rw [hstart, hmid, utf8Width_append, Nat.add_assoc]
  | edit hstart hstop hrest ih =>
    simp only [List.append_assoc, List.cons_append]
    refine .edit hstart hstop (ih ?_)
    rw [hmid, hstop, hstart, utf8Width_append, utf8Width_append]
    omega

/-- Only one text comes of edits. -/
theorem applyFrom_eq (h : Splices offset cs edits out) : applyFrom offset cs edits = out := by
  induction h with
  | done => rfl
  | @edit offset kept cut rest out e es hstart hstop hrest ih =>
    have htake : takeBytes (e.start - offset) (kept ++ (cut ++ rest)) = kept := by
      rw [hstart, Nat.add_sub_cancel_left, takeBytes_append]
    have hdrop : dropBytes (e.stop - offset) (kept ++ (cut ++ rest)) = rest := by
      rw [hstop, hstart, Nat.add_assoc, Nat.add_sub_cancel_left, ← utf8Width_append,
        ← List.append_assoc, dropBytes_append]
    rw [applyFrom, htake, hdrop, ih, List.append_assoc]

/-- Text that is put in at one place. -/
theorem insert (offset : Nat) (text : String) :
    Splices offset [] [⟨offset, offset, text⟩] text.toList := by
  have h : Splices offset ([] ++ ([] ++ [])) [⟨offset, offset, text⟩] ([] ++ (text.toList ++ [])) :=
    .edit rfl rfl .done
  rwa [List.nil_append, List.nil_append, List.nil_append, List.append_nil] at h

/-- A part of the text on which no span lies is kept. -/
theorem exists_around {as mid bs : List Char} (h : Splices offset (as ++ (mid ++ bs)) edits out)
    (hapart : ∀ e ∈ edits, e.stop ≤ offset + utf8Width as ∨
      offset + utf8Width (as ++ mid) ≤ e.start) :
    ∃ earlier later as' bs', edits = earlier ++ later ∧ out = as' ++ (mid ++ bs') ∧
      Splices offset as earlier as' ∧ Splices (offset + utf8Width (as ++ mid)) bs later bs' := by
  generalize hcs : as ++ (mid ++ bs) = cs at h
  induction h generalizing as with
  | done => exact ⟨[], [], as, bs, rfl, hcs.symm, .done, .done⟩
  | @edit offset kept cut rest out e es hstart hstop hrest ih =>
    rcases hapart e List.mem_cons_self with hbefore | hafter
    -- the span lies before the part
    · obtain ⟨as, rfl, hrest'⟩ : ∃ as', as = (kept ++ cut) ++ as' ∧ rest = as' ++ (mid ++ bs) := by
        refine exists_append_of_width_le (by rw [hcs, List.append_assoc]) ?_
        rw [utf8Width_append]
        omega
      have hoffset (ds : List Char) :
          offset + utf8Width ((kept ++ cut) ++ ds) = e.stop + utf8Width ds := by
        rw [hstop, hstart, utf8Width_append, utf8Width_append]
        omega
      rw [List.append_assoc (kept ++ cut), hoffset, hoffset] at hapart
      obtain ⟨earlier, later, as', bs', rfl, rfl, hbefore, hafter⟩ :=
        ih (fun x hx => hapart x (List.mem_cons_of_mem _ hx)) hrest'.symm
      refine ⟨e :: earlier, later, kept ++ (e.replacement.toList ++ as'), bs', rfl, by simp, ?_, ?_⟩
      · rw [List.append_assoc]
        exact .edit hstart hstop hbefore
      · rwa [List.append_assoc (kept ++ cut), hoffset]
    -- it lies after the part, and so do all later ones
    · obtain ⟨kept', rfl, hbs⟩ : ∃ kept', kept = (as ++ mid) ++ kept' ∧
          bs = kept' ++ (cut ++ rest) := by
        refine exists_append_of_width_le (by rw [List.append_assoc, hcs]) ?_
        omega
      refine ⟨[], e :: es, as, kept' ++ (e.replacement.toList ++ out), rfl, by simp, .done, ?_⟩
      rw [hbs]
      refine .edit ?_ hstop hrest
      rw [hstart, utf8Width_append, Nat.add_assoc]

/-- What comes of a text whose first span is at its start. -/
theorem exists_of_cons {cut rest : List Char} {es : List Edit}
    (h : Splices offset (cut ++ rest) (e :: es) out) (hstart : e.start = offset)
    (hstop : e.stop = offset + utf8Width cut) :
    ∃ out', out = e.replacement.toList ++ out' ∧ Splices e.stop rest es out' := by
  generalize hcs : cut ++ rest = cs at h
  cases h with
  | @edit _ kept cut' rest' out' _ _ hstart' hstop' hrest =>
    obtain rfl : kept = [] := utf8Width_eq_zero_iff.mp (by omega)
    rw [List.nil_append] at hcs
    obtain ⟨mid, rfl, rfl⟩ := exists_append_of_width_le hcs (by omega)
    obtain rfl : mid = [] := by
      rw [utf8Width_append] at hstop'
      exact utf8Width_eq_zero_iff.mp (by omega)
    exact ⟨out', rfl, hrest⟩

/-- Texts that are put in without characters of some kind add none. -/
theorem countP_le {p : Char → Bool} (h : Splices offset cs edits out)
    (hedits : ∀ e ∈ edits, ∀ c ∈ e.replacement.toList, p c = false) :
    out.countP p ≤ cs.countP p := by
  induction h with
  | done => exact Nat.le_refl _
  | @edit offset kept cut rest out e es _ _ _ ih =>
    have hnone : e.replacement.toList.countP p = 0 :=
      List.countP_eq_zero.mpr fun c hc => by simp [hedits e List.mem_cons_self c hc]
    have hrest := ih fun x hx => hedits x (List.mem_cons_of_mem _ hx)
    simp only [List.countP_append, hnone]
    omega

end Splices

end EdgeBundle.Edit
