import EdgeBundle.Proofs.Logged
import EdgeBundle.Proofs.Patch.Trap

/-!
# The default patches

A text that has been through the default patches stays as it is when it goes through them again. The
server start is settled once it is guarded, or if there is none to guard, and it stays so when lines
are taken out.

## Main definitions

* `serveParts`: the texts by which the start of the server is found.
* `IsSettled`: texts in which the start of the server is not guarded again.

## Main statements

* `find?_serveAnchor_eq_none_iff`: where the start of the server is found.
* `apply_guardServe_of_isSettled`: the first patch leaves settled texts as they are.
* `isSettled_apply_guardServe`: after the first patch a text is settled.
* `applyAll_defaults_idempotent`: applying the patches again changes nothing.
-/

namespace EdgeBundle.Patch

open Pattern

/-! ## The start of the server -/

/-- The texts by which the start of the server is found, in order. -/
def serveParts : List (List Char) :=
  ["const nitroApp = useNitroApp();", "let _fetch = nitroApp.fetch;", "serve(\x7b", "fetch: _fetch",
    "\x7d);"].map String.toList

theorem newline_not_mem_serveParts : ∀ part ∈ serveParts, '\n' ∉ part := by
  decide

theorem contains_any (c : Char) : CharClass.any.contains c = true := by
  have hvalid := c.valid
  have hcode : c.toNat < 0xD800 ∨ 0xDFFF < c.toNat ∧ c.toNat < 0x110000 := hvalid
  simp only [CharClass.contains, CharClass.any, Runs.contains, CharClass.maxCode]
  grind

theorem accepts_anything (cs : List Char) : anything.Accepts cs := fun c _ => contains_any c

/-- The part of the anchor before the call. -/
def setUpPart : Pattern :=
  .concat [literal "const nitroApp = useNitroApp();", anything,
    literal "let _fetch = nitroApp.fetch;", anything]

/-- The call. -/
def callPart : Pattern :=
  .concat [literal "serve(\x7b", anything, literal "fetch: _fetch", anything, literal "\x7d);"]

theorem accepts_anything_iff {p : Pattern} {cs : List Char} :
    (Pattern.seq anything p).Accepts cs ↔ ∃ as bs, p.Accepts bs ∧ cs = as ++ bs := by
  simp only [Accepts, accepts_anything, true_and]

theorem accepts_literal_iff {s : String} {p : Pattern} {cs : List Char} :
    (Pattern.seq (literal s) p).Accepts cs ↔ ∃ bs, p.Accepts bs ∧ cs = s.toList ++ bs := by
  simp only [literal, Accepts]
  constructor
  · rintro ⟨_, bs, rfl, hbs, rfl⟩
    exact ⟨bs, hbs, rfl⟩
  · rintro ⟨bs, hbs, rfl⟩
    exact ⟨_, bs, rfl, hbs, rfl⟩

/-- The anchor matches at a place exactly if its first part stands there and the others follow in
order. -/
theorem exists_mem_ways_serveAnchor {s : Cursor} :
    (∃ w, w ∈ ways serveAnchor s []) ↔
      ∃ rest, s.rest = "const nitroApp = useNitroApp();".toList ++ rest ∧
        InOrder serveParts.tail rest := by
  have hanchor : serveAnchor = .seq (.group 1 setUpPart) (.group 2 callPart) := rfl
  -- both groups are plain, so their ways are the texts that they match, one after the other
  have hways : (∃ w, w ∈ ways serveAnchor s []) ↔
      ∃ as bs rest, s.rest = as ++ (bs ++ rest) ∧ setUpPart.Accepts as ∧ callPart.Accepts bs := by
    simp only [hanchor, mem_ways_seq, mem_ways_group, mem_ways_iff_accepts (p := setUpPart) rfl,
      mem_ways_iff_accepts (p := callPart) rfl, Prod.mk.injEq]
    constructor
    · rintro ⟨_, _, _, ⟨_, _, ⟨as, _, hrest, has, rfl, rfl⟩, rfl, rfl⟩, _, _,
        ⟨bs, rest, rfl, hbs, -⟩, -⟩
      exact ⟨as, bs, rest, hrest, has, hbs⟩
    · rintro ⟨as, bs, rest, hrest, has, hbs⟩
      exact ⟨_, _, _, ⟨_, _, ⟨as, bs ++ rest, hrest, has, rfl, rfl⟩, rfl, rfl⟩, _, _,
        ⟨bs, rest, rfl, hbs, rfl, rfl⟩, rfl⟩
  rw [hways]
  simp only [setUpPart, callPart, concat, accepts_literal_iff, accepts_anything_iff]
  constructor
  · rintro ⟨_, _, rest, hrest, ⟨_, ⟨x, _, ⟨y, hy, rfl⟩, rfl⟩, rfl⟩,
      ⟨_, ⟨u, _, ⟨_, ⟨v, _, rfl, rfl⟩, rfl⟩, rfl⟩, rfl⟩⟩
    simp only [List.append_assoc] at hrest
    exact ⟨_, hrest, x, _, rfl, y, _, rfl, u, _, rfl, v, rest, rfl, trivial⟩
  · rintro ⟨_, hrest, x, _, rfl, y, _, rfl, u, _, rfl, v, rest, rfl, -⟩
    refine ⟨_, _, rest, ?_, ⟨_, ⟨x, _, ⟨y, accepts_anything y, rfl⟩, rfl⟩, rfl⟩,
      ⟨_, ⟨u, _, ⟨_, ⟨v, _, rfl, rfl⟩, rfl⟩, rfl⟩, rfl⟩⟩
    simp only [hrest, List.append_assoc]

/-- The anchor is found exactly if its parts stand in the text in order. -/
theorem find?_serveAnchor_eq_none_iff {text : List Char} :
    serveAnchor.find? text = none ↔ ¬ InOrder serveParts text := by
  rw [find?_eq_none_iff rfl]
  constructor
  · rintro hnone ⟨before, after, htext, hafter⟩
    have hplace := hnone before _ htext
    obtain ⟨w, hw⟩ := (@exists_mem_ways_serveAnchor ((Cursor.start text).after before _)).mpr
      ⟨after, rfl, hafter⟩
    rw [List.eq_nil_iff_forall_not_mem] at hplace
    exact hplace w hw
  · intro hparts before rest hrest
    refine List.eq_nil_iff_forall_not_mem.mpr fun w hw => hparts ?_
    obtain ⟨after, hcut, hafter⟩ := exists_mem_ways_serveAnchor.mp ⟨w, hw⟩
    rw [Cursor.after_rest] at hcut
    exact ⟨before, after, by rw [hrest, hcut], hafter⟩

/-- The first patch finds nothing exactly if the parts of its anchor do not stand in order. -/
theorem matchesIn_guardServe_eq_nil_iff {text : List Char} :
    guardServe.matchesIn text = [] ↔ ¬ InOrder serveParts text := by
  rw [← find?_serveAnchor_eq_none_iff]
  exact Option.toList_eq_nil_iff

/-! ## Settled texts -/

/-- The start of the server is guarded, or there is none to guard. -/
def IsSettled (text : List Char) : Prop :=
  guardText.toList <:+: text ∨ ¬ InOrder serveParts text

theorem isMarked_guardServe_iff {text : List Char} :
    guardServe.isMarked text = true ↔ guardText.toList <:+: text :=
  containsText_iff

/-- The guard stands in the text that the patch leaves if it finds its anchor. -/
theorem guardText_infix_expand (text : List Char) (m : Match) :
    guardText.toList <:+: guardServe.replacement.expand guardServe.groupNames text m := by
  refine ⟨m.group text 1, "\n  ".toList ++ (m.group text 2 ++ "\n\x7d".toList), ?_⟩
  simp [Replacement.expand, guardServe, List.flatMap_cons]

/-- What the patch does to a text that it changes. -/
theorem apply_guardServe_of_not_isSettled {text : List Char} (h : ¬ IsSettled text) :
    ∃ out, guardServe.apply text = (out, .applied 1) ∧ guardText.toList <:+: out := by
  rw [IsSettled, not_or, not_not, ← isMarked_guardServe_iff] at h
  obtain ⟨m, hm⟩ : ∃ m, serveAnchor.find? text = some m := by
    rw [← Option.ne_none_iff_exists', ne_eq, find?_serveAnchor_eq_none_iff, not_not]
    exact h.2
  have hfound : guardServe.matchesIn text = [m] := by
    change (serveAnchor.find? text).toList = [m]
    rw [hm]
    rfl
  rw [Patch.apply, if_neg h.1, hfound]
  exact ⟨_, rfl, (guardText_infix_expand text m).trans (List.infix_append _ _ _)⟩

/-- A settled text is left as it is. -/
theorem apply_guardServe_of_isSettled {text : List Char} (h : IsSettled text) :
    (guardServe.apply text).1 = text ∧
      ((guardServe.apply text).2 = .alreadyApplied ∨
        (guardServe.apply text).2 = .anchorMissing) := by
  rw [Patch.apply]
  split
  next => exact ⟨rfl, .inl rfl⟩
  next hmarked =>
    rw [isMarked_guardServe_iff] at hmarked
    rw [matchesIn_guardServe_eq_nil_iff.mpr (h.resolve_left hmarked)]
    exact ⟨rfl, .inr rfl⟩

/-- After the patch a text is settled. -/
theorem isSettled_apply_guardServe (text : List Char) : IsSettled (guardServe.apply text).1 := by
  by_cases h : IsSettled text
  · rwa [(apply_guardServe_of_isSettled h).1]
  · obtain ⟨out, hout, hguard⟩ := apply_guardServe_of_not_isSettled h
    rw [hout]
    exact .inl hguard

/-! ## Both patches -/

theorem not_isTrapLine_of_guardText {l : List Char} (h : guardText.toList <:+: l) :
    isTrapLine l = false := by
  have hmem : '!' ∈ l := h.subset (by decide)
  refine Bool.eq_false_iff.mpr fun htrap => ?_
  obtain ⟨code, ending, hcode, hending, rfl⟩ := isTrapLine_iff.mp htrap
  rcases List.mem_append.mp hmem with hmem | hmem
  · exact absurd (hcode.mem_chars hmem) (by decide)
  · exact (by decide : ∀ ending ∈ lineEnds, '!' ∉ ending) ending hending hmem

/-- Taking out lines with the call leaves a text settled. -/
theorem IsSettled.filter_lines {text : List Char} (h : IsSettled text) :
    IsSettled ((lines text).filter fun l => !isTrapLine l).flatten := by
  rcases h with hguard | hparts
  -- the guard stands inside one line, which is kept
  · have hnewline : '\n' ∉ guardText.toList := by decide
    rw [← flatten_lines text] at hguard
    obtain ⟨l, hl, hin⟩ := exists_mem_infix_of_infix_flatten (lined_lines text) hnewline (by decide)
      hguard
    have hkept : l ∈ (lines text).filter fun l => !isTrapLine l :=
      List.mem_filter.mpr ⟨hl, by simp [not_isTrapLine_of_guardText hin]⟩
    exact .inl (hin.trans (List.infix_of_mem_flatten hkept))
  -- parts that stand in order in the kept lines do so in all lines
  · refine .inr fun hafter => hparts ?_
    rw [← flatten_lines text]
    exact hafter.of_flatten_filter newline_not_mem_serveParts (lined_lines text)

/-- No line with the call is left. -/
theorem apply_removeErrorTrap_again (text : List Char) :
    removeErrorTrap.apply (removeErrorTrap.apply text).1 =
      ((removeErrorTrap.apply text).1, .anchorMissing) := by
  have hkept : ∀ l ∈ (lines text).filter fun l => !isTrapLine l, (!isTrapLine l) = true :=
    fun l hl => (List.mem_filter.mp hl).2
  have hcount : ((lines text).filter fun l => !isTrapLine l).countP isTrapLine = 0 := by
    rw [List.countP_eq_zero]
    exact fun l hl => by simpa using hkept l hl
  rw [apply_removeErrorTrap text, apply_removeErrorTrap, lines_flatten_filter,
    List.filter_eq_self.mpr hkept, if_pos hcount]

section Logged

variable {ε : Type}

/-- Patches are applied in order, each to the text that the one before it leaves. -/
theorem result_applyAll_cons {p : Patch} {ps : List Patch} {text out : List Char}
    {outcomes : List PatchOutcome}
    (h : (applyAll ps (p.apply text).1 : Logged ε _).result = .ok (out, outcomes)) :
    (applyAll (p :: ps) text : Logged ε _).result =
      .ok (out, ⟨p.name, (p.apply text).2⟩ :: outcomes) := by
  rw [applyAll]
  generalize p.apply text = applied at h ⊢
  obtain ⟨text', status⟩ := applied
  simp only
  split
  · exact Logged.result_bind_eq_ok_iff.mpr
      ⟨(), rfl, Logged.result_bind_eq_ok_iff.mpr ⟨_, h, rfl⟩⟩
  · exact Logged.result_bind_eq_ok_iff.mpr ⟨_, h, rfl⟩

/-- What the default patches do. -/
theorem result_applyAll_defaults (text : List Char) :
    (applyAll defaults text : Logged ε _).result =
      .ok ((removeErrorTrap.apply (guardServe.apply text).1).1,
        [⟨guardServe.name, (guardServe.apply text).2⟩,
          ⟨removeErrorTrap.name, (removeErrorTrap.apply (guardServe.apply text).1).2⟩]) :=
  result_applyAll_cons (result_applyAll_cons rfl)

/-- Applying the default patches to what they leave changes nothing, and none of them says that it
did. -/
theorem applyAll_defaults_idempotent (text : List Char) :
    ∃ once outcomes outcomes',
      (applyAll defaults text : Logged ε _).result = .ok (once, outcomes) ∧
      (applyAll defaults once : Logged ε _).result = .ok (once, outcomes') ∧
      outcomes'.map PatchOutcome.name = defaults.map Patch.name ∧
      ∀ o ∈ outcomes', o.isApplied = false := by
  -- settled by the first patch, and kept so by the second
  have hsettled : IsSettled (removeErrorTrap.apply (guardServe.apply text).1).1 := by
    rw [apply_removeErrorTrap]
    exact (isSettled_apply_guardServe text).filter_lines
  obtain ⟨hsame, hstatus⟩ := apply_guardServe_of_isSettled hsettled
  have hagain := @result_applyAll_defaults ε (removeErrorTrap.apply (guardServe.apply text).1).1
  rw [hsame, apply_removeErrorTrap_again] at hagain
  refine ⟨_, _, _, result_applyAll_defaults text, hagain, rfl, ?_⟩
  intro o ho
  simp only [List.mem_cons, List.not_mem_nil, or_false] at ho
  rcases ho with rfl | rfl
  · rcases hstatus with h | h <;> simp [PatchOutcome.isApplied, h]
  · rfl

end Logged

end EdgeBundle.Patch
