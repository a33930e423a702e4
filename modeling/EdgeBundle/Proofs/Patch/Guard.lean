import EdgeBundle.Proofs.Patch.Default

/-!
# Guarding the start of the server

Where the first patch applies, it puts the head of the guard before the call that starts the server
and a closing brace after it. The call is found by its texts alone: it ends at the first closing
brace, parenthesis and semicolon after its `fetch: _fetch`, whatever they close.

## Main definitions

* `ServerCall`: texts that the anchor takes for the call.
* `Guards`: a text with its call guarded.

## Main statements

* `guards_of_applied`: what the first patch does where it applies.
-/

namespace EdgeBundle.Patch

open Pattern

/-- How the call that starts the server begins. -/
def callHead : List Char := "serve(\x7b".toList
/-- How it ends. -/
def callTail : List Char := "\x7d);".toList

/-- What is put in before the call. -/
def guardHead : String := guardText ++ "\n  "

/-- What is put in after it. -/
def guardEnd : String := "\n\x7d"

/-- A text that is taken for the call: it starts with its head and ends with the first tail after
what it passes on. -/
structure ServerCall (call : List Char) : Prop where
  /-- The parts stand in it in order, and the tail only at the end. -/
  exists_parts : ∃ options passed, call =
    callHead ++ (options ++ ("fetch: _fetch".toList ++ (passed ++ callTail))) ∧
      ∀ as bs, passed = as ++ bs → bs ≠ [] → ¬ callTail <+: bs ++ callTail

namespace ServerCall

variable {call : List Char}

theorem isPrefix (h : ServerCall call) : callHead <+: call := by
  obtain ⟨options, passed, rfl, -⟩ := h.exists_parts
  exact List.prefix_append _ _

theorem isSuffix (h : ServerCall call) : callTail <:+ call := by
  obtain ⟨options, passed, rfl, -⟩ := h.exists_parts
  simp only [← List.append_assoc]
  exact List.suffix_append _ _

/-- A call starts with its name. -/
theorem exists_cons (h : ServerCall call) : ∃ rest, call = 's' :: 'e' :: rest := by
  obtain ⟨options, passed, rfl, -⟩ := h.exists_parts
  exact ⟨_, rfl⟩

/-- A call ends with its semicolon. -/
theorem exists_append (h : ServerCall call) : ∃ rest, call = rest ++ [';'] := by
  obtain ⟨options, passed, rfl, -⟩ := h.exists_parts
  have htail : callTail = ['\x7d', ')'] ++ [';'] := by decide
  rw [htail]
  refine ⟨callHead ++ (options ++ ("fetch: _fetch".toList ++ (passed ++ ['\x7d', ')']))), ?_⟩
  simp only [List.append_assoc]

end ServerCall

/-- The text with the call between `before` and `after` is `out` once the call is guarded. -/
structure Guards (text before call after out : List Char) : Prop where
  /-- The call stands in the text. -/
  text_eq : text = before ++ (call ++ after)
  /-- It is what the second group of the anchor matches. -/
  exists_match : ∃ m, guardServe.matchesIn text = [m] ∧
    m.groups.lookup 2 = some (before.length, (before ++ call).length)
  /-- It has the form of a call. -/
  isCall : ServerCall call
  /-- The guard is put around it. -/
  out_eq : out = before ++ (guardHead.toList ++ (call ++ (guardEnd.toList ++ after)))

/-- The text of a group by its place. -/
theorem group_of_lookup {m : Match} {index : Nat} {before mid after : List Char} (hne : index ≠ 0)
    (h : m.groups.lookup index = some (before.length, (before ++ mid).length)) :
    m.group (before ++ (mid ++ after)) index = mid := by
  rw [Match.group, if_neg hne, h]
  change ((before ++ (mid ++ after)).drop before.length).take _ = mid
  rw [List.drop_left, List.length_append, Nat.add_sub_cancel_left, List.take_left]

/-- The first way of the second part of the anchor reads a call. -/
theorem head?_ways_callPart {s : Cursor} {g : Groups} {w : Way}
    (h : (ways callPart s g).head? = some w) :
    ∃ call rest, s.rest = call ++ rest ∧ ServerCall call ∧ w = (s.after call rest, g) := by
  -- head, options, `fetch: _fetch`, and the rest of the options up to the first tail
  obtain ⟨_, _, hhead, h⟩ := head?_ways_seq h
  obtain ⟨_, _, hoptions, h⟩ := head?_ways_seq h
  obtain ⟨_, _, hfetch, h⟩ := head?_ways_seq h
  obtain ⟨_, hrest, hway⟩ := mem_ways_text.mp hhead
  cases hway
  obtain ⟨options, _, rfl, -, hway⟩ := mem_ways_many.mp hoptions
  cases hway
  obtain ⟨_, rfl, hway⟩ := mem_ways_text.mp hfetch
  cases hway
  obtain ⟨passed, rest, rfl, rfl, hfirst⟩ := head?_ways_many_text h
  refine ⟨callHead ++ (options ++ ("fetch: _fetch".toList ++ (passed ++ callTail))), rest, ?_,
    ⟨options, passed, rfl, fun as bs hsplit hne hstarts => ?_⟩, ?_⟩
  · change s.rest = callHead ++ (options ++ ("fetch: _fetch".toList ++ (passed ++
      (callTail ++ rest)))) at hrest
    rw [hrest]
    -- the texts themselves do not matter here
    generalize callHead = head
    generalize "fetch: _fetch".toList = fetch
    generalize callTail = tail
    simp only [List.append_assoc]
  · refine hfirst as bs hsplit hne ?_
    rw [← List.append_assoc]
    exact hstarts.trans (List.prefix_append _ _)
  · rw [Cursor.after_append, Cursor.after_append, Cursor.after_append]
    rfl

/-- The first way of the anchor at a place. -/
theorem head?_ways_serveAnchor {s : Cursor} {w : Way}
    (h : (ways serveAnchor s []).head? = some w) :
    ∃ setUp call rest, s.rest = setUp ++ (call ++ rest) ∧ ServerCall call ∧
      w = (s.after (setUp ++ call) rest,
        [(2, s.pos + setUp.length, s.pos + setUp.length + call.length),
          (1, s.pos, s.pos + setUp.length)]) := by
  have hanchor : serveAnchor = .seq (.group 1 setUpPart) (.group 2 callPart) := rfl
  rw [hanchor] at h
  obtain ⟨t, k, hsetUp, h⟩ := head?_ways_seq h
  obtain ⟨u, k', hcallWay, rfl⟩ := head?_ways_group h
  obtain ⟨_, _, hfirst, hk⟩ := mem_ways_group.mp hsetUp
  obtain ⟨setUp, _, hrest, -, hway⟩ := (mem_ways_iff_accepts (p := setUpPart) rfl).mp hfirst
  cases hk
  cases hway
  obtain ⟨call, rest, rfl, hcall, hway⟩ := head?_ways_callPart hcallWay
  cases hway
  refine ⟨setUp, call, rest, hrest, hcall, ?_⟩
  simp only [Cursor.after_append, Cursor.after_pos, List.length_append, Nat.add_assoc]

/-- What the anchor finds in a text. -/
theorem exists_of_find?_serveAnchor {text : List Char} {m : Match}
    (h : serveAnchor.find? text = some m) :
    ∃ before setUp call after, text = before ++ (setUp ++ (call ++ after)) ∧ ServerCall call ∧
      m.start = before.length ∧ m.stop = (before ++ (setUp ++ call)).length ∧
      m.group text 1 = setUp ∧
      m.groups.lookup 2 = some ((before ++ setUp).length, (before ++ (setUp ++ call)).length) := by
  obtain ⟨before, rest, w, rfl, hw, rfl⟩ := exists_way_of_find? rfl h
  obtain ⟨setUp, call, after, rfl, hcall, rfl⟩ := head?_ways_serveAnchor hw
  refine ⟨before, setUp, call, after, rfl, hcall, rfl, ?_, ?_, ?_⟩
  · simp [Cursor.start]
  · simp [Match.group, Match.slice, Cursor.start, List.lookup_cons]
  · simp [Cursor.start, Nat.add_assoc]

namespace Guards

variable {text before call after out : List Char}

/-- The call stands where the second group of the anchor does. -/
theorem eq_of_match {m : Match} {start stop : Nat} (h : Guards text before call after out)
    (hm : guardServe.matchesIn text = [m]) (hspan : m.groups.lookup 2 = some (start, stop)) :
    before = text.take start ∧ call = m.group text 2 := by
  obtain ⟨m', hm', hspan'⟩ := h.exists_match
  obtain rfl : m = m' := List.singleton_inj.mp (hm.symm.trans hm')
  rw [hspan, Option.some.injEq, Prod.mk.injEq] at hspan'
  refine ⟨?_, ?_⟩
  · rw [hspan'.1, h.text_eq, List.take_left]
  · rw [h.text_eq, group_of_lookup (by decide) (by rw [hspan, hspan'.1, hspan'.2])]

/-- There is one call that is guarded. -/
theorem unique {before' call' after' out' : List Char} (h : Guards text before call after out)
    (h' : Guards text before' call' after' out') : before' = before ∧ call' = call := by
  obtain ⟨m, hm, hspan⟩ := h.exists_match
  obtain ⟨hbefore, hcall⟩ := h.eq_of_match hm hspan
  obtain ⟨hbefore', hcall'⟩ := h'.eq_of_match hm hspan
  exact ⟨hbefore'.trans hbefore.symm, hcall'.trans hcall.symm⟩

end Guards

/-- Where the first patch applies, it guards a call, once. -/
theorem guards_of_applied {text out : List Char} {n : Nat}
    (h : guardServe.apply text = (out, .applied n)) :
    n = 1 ∧ ∃ before call after, Guards text before call after out := by
  rw [Patch.apply] at h
  split at h
  next => cases h
  next =>
    have hmatches : guardServe.matchesIn text = (serveAnchor.find? text).toList := rfl
    cases hfind : serveAnchor.find? text with
    | none =>
      rw [hmatches, hfind] at h
      cases h
    | some m =>
      rw [hmatches, hfind] at h
      obtain ⟨before, setUp, call, after, htext, hcall, hstart, hstop, hfirst, hspan⟩ :=
        exists_of_find?_serveAnchor hfind
      cases h
      refine ⟨rfl, before ++ setUp, call, after, ?_, ⟨m, ?_, ?_⟩, hcall, ?_⟩
      · rw [htext, List.append_assoc]
      · rw [hmatches, hfind]
        rfl
      · rw [hspan, List.append_assoc]
      -- the match is replaced, and what stands around it stays
      · have hkept : text.take (m.start - 0) = before := by
          rw [hstart, htext, Nat.sub_zero, List.take_left]
        have hafter : text.drop (m.stop - 0) = after := by
          have hsplit : text = (before ++ (setUp ++ call)) ++ after := by simp [htext]
          rw [hstop, Nat.sub_zero, hsplit, List.drop_left]
        change text.take (m.start - 0) ++ _ ++ text.drop (m.stop - 0) = _
        have hsecond : m.group text 2 = call := by
          rw [← List.append_assoc] at hspan
          rw [htext, ← List.append_assoc]
          exact group_of_lookup (by decide) hspan
        rw [hkept, hafter]
        simp [Replacement.expand, guardServe, guardHead, guardEnd, hfirst, hsecond]

end EdgeBundle.Patch
