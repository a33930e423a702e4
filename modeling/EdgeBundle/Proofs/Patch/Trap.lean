import EdgeBundle.Patch
import EdgeBundle.Proofs.Pattern.Ways
import EdgeBundle.Proofs.Text.Lines
import Mathlib.Data.List.TakeWhile

/-!
# Removing the error trap

The patch against the handler for stray errors takes out exactly the lines that do nothing but
install it, and keeps all other lines.

## Main definitions

* `isTrapLine`: lines that do nothing but install the handler.

## Main statements

* `mem_ways_trapAnchor`: the anchor matches exactly such a line.
* `apply_removeErrorTrap`: what the patch does to a text.
-/

namespace EdgeBundle.Patch

open Pattern

/-- Whether a character is a blank inside a line. -/
def isLineBlank (c : Char) : Bool :=
  c == '\t' || c == ' '

/-- The call that installs the handler. -/
def trapCall : List Char :=
  "trapUnhandledErrors()".toList

/-- Ends of lines, the end of the text included. -/
def lineEnds : List (List Char) :=
  [['\n'], ['\r', '\n'], []]

/-- Whether a line is the call and nothing else but blanks, a semicolon after it, and a line end. -/
def isTrapLine (line : List Char) : Bool :=
  match dropHead? trapCall (line.dropWhile isLineBlank) with
  | none => false
  | some rest =>
    let rest := rest.dropWhile isLineBlank
    let rest := (dropHead? [';'] rest).getD rest
    lineEnds.contains (rest.dropWhile isLineBlank)

/-- The call with blanks around it and perhaps a semicolon after it. -/
inductive TrapCode : List Char → Prop
  | mk {before middle stop after : List Char} (hbefore : ∀ c ∈ before, isLineBlank c = true)
      (hmiddle : ∀ c ∈ middle, isLineBlank c = true) (hstop : stop ∈ [[';'], []])
      (hafter : ∀ c ∈ after, isLineBlank c = true) :
      TrapCode (before ++ (trapCall ++ (middle ++ (stop ++ after))))

namespace TrapCode

variable {code : List Char}

theorem ne_nil (h : TrapCode code) : code ≠ [] := by
  cases h
  intro hnil
  obtain ⟨-, hrest⟩ := List.append_eq_nil_iff.mp hnil
  exact absurd (List.append_eq_nil_iff.mp hrest).1 (by decide)

/-- Characters of the code. -/
theorem mem_chars (h : TrapCode code) {c : Char} (hc : c ∈ code) :
    c ∈ '\t' :: ' ' :: ';' :: trapCall := by
  have hblank : ∀ cs : List Char, (∀ d ∈ cs, isLineBlank d = true) → c ∈ cs →
      c ∈ '\t' :: ' ' :: ';' :: trapCall := by
    intro cs hall hmem
    have := hall c hmem
    simp only [isLineBlank, Bool.or_eq_true, beq_iff_eq] at this
    rcases this with rfl | rfl <;> simp
  cases h with
  | @mk before middle stop after hbefore hmiddle hstop hafter =>
    simp only [List.mem_append] at hc
    rcases hc with hc | hc | hc | hc | hc
    · exact hblank before hbefore hc
    · exact List.mem_cons_of_mem _ (List.mem_cons_of_mem _ (List.mem_cons_of_mem _ hc))
    · exact hblank middle hmiddle hc
    · simp only [List.mem_cons, List.not_mem_nil, or_false] at hstop
      rcases hstop with rfl | rfl
      · rw [List.mem_singleton] at hc
        subst hc
        simp
      · cases hc
    · exact hblank after hafter hc

theorem newline_not_mem (h : TrapCode code) : '\n' ∉ code := fun hc =>
  absurd (h.mem_chars hc) (by decide)

end TrapCode

/-! ## Reading a line -/

theorem dropWhile_blanks {bs rest : List Char} (hbs : ∀ c ∈ bs, isLineBlank c = true)
    (hrest : ∀ c ∈ rest.head?, isLineBlank c = false) :
    (bs ++ rest).dropWhile isLineBlank = rest := by
  rw [List.dropWhile_append_of_pos hbs]
  cases rest with
  | nil => rfl
  | cons c rest => exact List.dropWhile_cons_of_neg (by simp [hrest c rfl])

/-- The blanks at the start of a text. -/
theorem exists_blanks (text : List Char) :
    ∃ bs, (∀ c ∈ bs, isLineBlank c = true) ∧ text = bs ++ text.dropWhile isLineBlank :=
  ⟨text.takeWhile isLineBlank, fun _ hc => List.mem_takeWhile_imp hc,
    (List.takeWhile_append_dropWhile).symm⟩

theorem head?_ending {ending : List Char} (h : ending ∈ lineEnds) :
    ∀ c ∈ ending.head?, isLineBlank c = false ∧ c ≠ ';' := by
  simp only [lineEnds, List.mem_cons, List.not_mem_nil, or_false] at h
  rcases h with rfl | rfl | rfl <;> simp [isLineBlank]

/-- The rest of a line that a semicolon may start. -/
theorem exists_stop (text : List Char) :
    ∃ stop ∈ [[';'], []], text = stop ++ (dropHead? [';'] text).getD text := by
  cases hd : dropHead? [';'] text with
  | none => exact ⟨[], by simp, rfl⟩
  | some tail => exact ⟨[';'], by simp, dropHead?_eq_some_iff.mp hd⟩

theorem exists_code_of_isTrapLine {line : List Char} (h : isTrapLine line = true) :
    ∃ code ending, TrapCode code ∧ ending ∈ lineEnds ∧ line = code ++ ending := by
  rw [isTrapLine] at h
  split at h
  next => cases h
  next rest hrest =>
    rw [dropHead?_eq_some_iff] at hrest
    -- each part that is cut off the line is a part of the code
    obtain ⟨before, hbefore, hline⟩ := exists_blanks line
    obtain ⟨middle, hmiddle, hmid⟩ := exists_blanks rest
    obtain ⟨stop, hmem, hstop⟩ := exists_stop (rest.dropWhile isLineBlank)
    simp only at h
    generalize (dropHead? [';'] (rest.dropWhile isLineBlank)).getD
      (rest.dropWhile isLineBlank) = tail at h hstop
    obtain ⟨after, hafter, htail⟩ := exists_blanks tail
    refine ⟨_, tail.dropWhile isLineBlank, .mk hbefore hmiddle hmem hafter,
      List.contains_iff_mem.mp h, ?_⟩
    simp only [List.append_assoc]
    rw [← htail, ← hstop, ← hmid, ← hrest, ← hline]

theorem isTrapLine_of_code {code ending : List Char} (hcode : TrapCode code)
    (hending : ending ∈ lineEnds) : isTrapLine (code ++ ending) = true := by
  obtain @⟨before, middle, stop, after, hbefore, hmiddle, hstop, hafter⟩ := hcode
  have hhead := head?_ending hending
  have hcall : ∀ c ∈ (trapCall ++ (middle ++ (stop ++ (after ++ ending)))).head?,
      isLineBlank c = false := by
    rintro _ ⟨⟩
    rfl
  simp only [List.append_assoc, isTrapLine]
  rw [dropWhile_blanks hbefore hcall, dropHead?_eq_some_iff.mpr rfl]
  simp only [List.mem_cons, List.not_mem_nil, or_false] at hstop
  rcases hstop with rfl | rfl
  · have hsemicolon : ∀ c ∈ ([';'] ++ (after ++ ending)).head?, isLineBlank c = false := by
      rintro _ ⟨⟩
      rfl
    simp only
    rw [dropWhile_blanks hmiddle hsemicolon, dropHead?_eq_some_iff.mpr rfl, Option.getD_some,
      dropWhile_blanks hafter fun c hc => (hhead c hc).1]
    exact List.contains_iff_mem.mpr hending
  · -- without a semicolon all blanks after the call are in one place
    have hnone : dropHead? [';'] ending = none := by
      refine Option.eq_none_iff_forall_ne_some.mpr fun rest hrest => ?_
      rw [dropHead?_eq_some_iff] at hrest
      subst hrest
      exact (hhead ';' rfl).2 rfl
    have hblanks : ∀ c ∈ middle ++ after, isLineBlank c = true := by
      intro c hc
      exact (List.mem_append.mp hc).elim (hmiddle c) (hafter c)
    simp only [List.nil_append]
    rw [← List.append_assoc, dropWhile_blanks hblanks fun c hc => (hhead c hc).1, hnone,
      Option.getD_none]
    have hend : ending.dropWhile isLineBlank = ending :=
      @dropWhile_blanks [] ending (by simp) fun c hc => (hhead c hc).1
    rw [hend]
    exact List.contains_iff_mem.mpr hending

/-- Lines with the call are the code of the call with a line end. -/
theorem isTrapLine_iff {line : List Char} :
    isTrapLine line = true ↔ ∃ code ending, TrapCode code ∧ ending ∈ lineEnds ∧
      line = code ++ ending := by
  constructor
  · exact exists_code_of_isTrapLine
  · rintro ⟨code, ending, hcode, hending, rfl⟩
    exact isTrapLine_of_code hcode hending

/-! ## Matching a line -/

theorem contains_lineBlanks {c : Char} :
    (CharClass.ofChars ['\t', ' ']).contains c = true ↔ isLineBlank c = true := by
  have htab : '\t'.toNat = 9 := rfl
  have hspace : ' '.toNat = 32 := rfl
  simp only [CharClass.contains, CharClass.ofChars, List.map_cons, List.map_nil, Runs.contains,
    isLineBlank, Bool.or_eq_true, beq_iff_eq, ← Char.toNat_inj, htab, hspace, Bool.if_false_left,
    Bool.and_eq_true, Bool.not_eq_true', decide_eq_false_iff_not, decide_eq_true_eq, Bool.or_false]
  omega

/-- Parts of the anchor between the start of the line and its end. -/
def trapParts : List Pattern :=
  [blanks, .text trapCall, blanks, .opt true (.text [';']), blanks]

theorem accepts_trapParts {code : List Char} : (concat trapParts).Accepts code ↔ TrapCode code := by
  have hblanks : ∀ cs : List Char, blanks.Accepts cs ↔ ∀ c ∈ cs, isLineBlank c = true := by
    intro cs
    simp only [blanks, Accepts, contains_lineBlanks]
  simp only [trapParts, accepts_concat_cons, hblanks]
  constructor
  · rintro ⟨before, _, hbefore, ⟨_, _, rfl, ⟨middle, _, hmiddle, ⟨stop, _, hstop, ⟨after, _, hafter,
      rfl, rfl⟩, rfl⟩, rfl⟩, rfl⟩, rfl⟩
    rw [List.append_nil]
    exact .mk hbefore hmiddle (by simpa [Accepts] using hstop) hafter
  · rintro @⟨before, middle, stop, after, hbefore, hmiddle, hstop, hafter⟩
    exact ⟨before, _, hbefore, ⟨_, _, rfl, ⟨middle, _, hmiddle, ⟨stop, _,
      by simpa [Accepts] using hstop, ⟨after, [], hafter, rfl, by simp⟩, rfl⟩, rfl⟩, rfl⟩, rfl⟩

/-- The anchor reads the code of a line with its end. -/
theorem mem_ways_trapAnchor {s : Cursor} {g : Groups} {w : Way} :
    w ∈ ways trapAnchor s g ↔
      Look.lineStart.holds s = true ∧ ∃ code ending rest, TrapCode code ∧
        s.rest = code ++ (ending ++ rest) ∧
        (ending = ['\n'] ∨ ending = ['\r', '\n'] ∨ ending = [] ∧ rest = []) ∧
        w = (s.after (code ++ ending) rest, g) := by
  have hparts : trapAnchor = concat ([.look .lineStart] ++ (trapParts ++
      [.alt (.seq (.opt true (literal "\r")) (literal "\n")) (.look .textEnd)])) := rfl
  have hbreak : ∀ {cs}, (Pattern.seq (.opt true (literal "\r")) (literal "\n")).Accepts cs ↔
      cs = ['\n'] ∨ cs = ['\r', '\n'] := by
    intro cs
    simp only [literal, Accepts]
    constructor
    · rintro ⟨_, _, rfl | rfl, rfl, rfl⟩
      · exact .inr rfl
      · exact .inl rfl
    · rintro (rfl | rfl)
      · exact ⟨[], ['\n'], .inr rfl, rfl, rfl⟩
      · exact ⟨['\r'], ['\n'], .inl rfl, rfl, rfl⟩
  -- the start of a line, the code of the call, and the end of the line, one after the other
  rw [hparts, mem_ways_concat_append]
  simp only [mem_ways_concat_append]
  simp only [concat, mem_ways_look, Prod.mk.injEq, mem_ways_alt, accepts_trapParts, hbreak,
    mem_ways_iff_accepts (p := concat trapParts) rfl,
    mem_ways_iff_accepts (p := .seq (.opt true (literal "\r")) (literal "\n")) rfl]
  constructor
  · rintro ⟨_, _, ⟨hstart, rfl, rfl⟩, _, _, ⟨code, _, hrest, hcode, rfl, rfl⟩,
      ⟨ending, rest, rfl, hending, rfl⟩ | ⟨hend, rfl⟩⟩
    · refine ⟨hstart, code, ending, rest, hcode, hrest, ?_, ?_⟩
      · rcases hending with h | h <;> simp [h]
      · rw [Cursor.after_append]
    · refine ⟨hstart, code, [], _, hcode, hrest, ?_, ?_⟩
      · exact .inr (.inr ⟨rfl, List.head?_eq_none_iff.mp (Option.isNone_iff_eq_none.mp hend)⟩)
      · rw [List.append_nil]
  · rintro ⟨hstart, code, ending, rest, hcode, hrest, hending, rfl⟩
    refine ⟨s, g, ⟨hstart, rfl, rfl⟩, _, _, ⟨code, _, hrest, hcode, rfl, rfl⟩, ?_⟩
    rcases hending with h | h | ⟨rfl, rfl⟩
    · exact .inl ⟨ending, rest, rfl, .inl h, by rw [Cursor.after_append]⟩
    · exact .inl ⟨ending, rest, rfl, .inr h, by rw [Cursor.after_append]⟩
    · exact .inr ⟨rfl, by rw [List.append_nil]; rfl⟩

/-- Where the call stands on a line, the line ends where the match does. -/
theorem lines_trapCode {code ending rest : List Char} (hcode : TrapCode code)
    (hending : ending = ['\n'] ∨ ending = ['\r', '\n'] ∨ ending = [] ∧ rest = []) :
    lines (code ++ (ending ++ rest)) = (code ++ ending) :: lines rest := by
  rcases hending with rfl | rfl | ⟨rfl, rfl⟩
  · exact lines_line hcode.newline_not_mem rest
  · have hbody : '\n' ∉ code ++ ['\r'] := by simp [hcode.newline_not_mem]
    have hline := lines_line hbody rest
    simpa only [List.append_assoc, List.singleton_append, List.cons_append,
      List.nil_append] using hline
  · rw [List.append_nil, List.append_nil]
    exact lines_last hcode.newline_not_mem hcode.ne_nil

/-- On a line the anchor reads the whole line, if it is one with the call. -/
theorem mem_ways_trapAnchor_of_lined {s : Cursor} {g : Groups} {w : Way} {l : List Char}
    {ls : List (List Char)} (hls : Lined (l :: ls)) (hrest : s.rest = l ++ ls.flatten) :
    w ∈ ways trapAnchor s g ↔
      Look.lineStart.holds s = true ∧ isTrapLine l = true ∧ w = (s.after l ls.flatten, g) := by
  have hlines : lines (l ++ ls.flatten) = l :: ls := lines_flatten hls
  rw [mem_ways_trapAnchor, isTrapLine_iff]
  refine and_congr_right fun _ => ?_
  constructor
  · rintro ⟨code, ending, rest, hcode, hcut, hending, rfl⟩
    rw [hrest] at hcut
    -- a text is cut into lines in one way, so code and line end are the first line
    rw [hcut, lines_trapCode hcode hending] at hlines
    obtain ⟨rfl, hls'⟩ := List.cons.inj hlines
    refine ⟨⟨code, ending, hcode, ?_, rfl⟩, ?_⟩
    · rcases hending with rfl | rfl | ⟨rfl, -⟩ <;> simp [lineEnds]
    · rw [← hls', flatten_lines]
  · rintro ⟨⟨code, ending, hcode, hending, rfl⟩, rfl⟩
    refine ⟨code, ending, ls.flatten, hcode, by rw [hrest, List.append_assoc], ?_, rfl⟩
    simp only [lineEnds, List.mem_cons, List.not_mem_nil, or_false] at hending
    rcases hending with rfl | rfl | rfl
    · exact .inl rfl
    · exact .inr (.inl rfl)
    · -- a line without a newline is the last
      refine .inr (.inr ⟨rfl, ?_⟩)
      rw [List.append_nil] at hls
      generalize code = line at hls hcode
      cases hls with
      | last => rfl
      | line => exact absurd (by simp) hcode.newline_not_mem

theorem isUnmarked_trapAnchor : trapAnchor.isUnmarked = true := rfl

/-- What the anchor matches at the start of a line. -/
theorem firstMatch?_trapAnchor {s : Cursor} {l : List Char} {ls : List (List Char)}
    (hls : Lined (l :: ls)) (hrest : s.rest = l ++ ls.flatten) :
    trapAnchor.firstMatch? s =
      if Look.lineStart.holds s = true ∧ isTrapLine l = true then some ⟨s.pos, s.pos + l.length, []⟩
      else none := by
  split
  next h =>
    exact firstMatch?_eq_some (w := (s.after l ls.flatten, []))
      ((mem_ways_trapAnchor_of_lined hls hrest).mpr ⟨h.1, h.2, rfl⟩)
      fun w hw => ((mem_ways_trapAnchor_of_lined hls hrest).mp hw).2.2
  next h =>
    rw [firstMatch?_eq_none_iff]
    refine List.eq_nil_iff_forall_not_mem.mpr fun w hw => h ?_
    obtain ⟨hstart, htrap, -⟩ := (mem_ways_trapAnchor_of_lined hls hrest).mp hw
    exact ⟨hstart, htrap⟩

/-- Inside a line and at the end of a text the anchor does not match. -/
theorem firstMatch?_trapAnchor_eq_none {s : Cursor}
    (h : Look.lineStart.holds s = false ∨ s.rest = []) : trapAnchor.firstMatch? s = none := by
  rw [firstMatch?_eq_none_iff]
  refine List.eq_nil_iff_forall_not_mem.mpr fun w hw => ?_
  obtain ⟨hstart, code, ending, rest, hcode, hrest, -⟩ := mem_ways_trapAnchor.mp hw
  rcases h with h | h
  · rw [h] at hstart
    cases hstart
  · rw [h] at hrest
    exact hcode.ne_nil (List.append_eq_nil_iff.mp hrest.symm).1

/-! ## Matching a text -/

/-- The matches of the lines with the call, the first line being at place `pos`. -/
def trapMatches (pos : Nat) : List (List Char) → List Match
  | [] => []
  | l :: ls =>
    let later := trapMatches (pos + l.length) ls
    if isTrapLine l then ⟨pos, pos + l.length, []⟩ :: later else later

theorem length_trapMatches (pos : Nat) (ls : List (List Char)) :
    (trapMatches pos ls).length = ls.countP isTrapLine := by
  induction ls generalizing pos with
  | nil => rfl
  | cons l ls ih =>
    rw [trapMatches, List.countP_cons, ← ih (pos + l.length)]
    split <;> rfl

/-- Searching goes on after the line at whose start it is. -/
theorem findAllFrom_trapAnchor_line (acc : List Match) (barred : Bool) {s : Cursor} (v : Visits)
    {l : List Char} {ls : List (List Char)} (hls : Lined (l :: ls))
    (hstart : Look.lineStart.holds s = true) :
    ∃ barred' v', trapAnchor.findAllFrom acc 0 barred s.prev s.pos (l ++ ls.flatten) v =
      trapAnchor.findAllFrom
        (if isTrapLine l then ⟨s.pos, s.pos + l.length, []⟩ :: acc else acc) 0 barred'
        (s.after l ls.flatten).prev (s.after l ls.flatten).pos ls.flatten v' := by
  have hfirst := firstMatch?_trapAnchor (s := ⟨s.prev, s.pos, l ++ ls.flatten⟩) hls rfl
  have hholds : Look.lineStart.holds ⟨s.prev, s.pos, l ++ ls.flatten⟩ = true := hstart
  by_cases htrap : isTrapLine l = true
  · rw [if_pos ⟨hholds, htrap⟩] at hfirst
    have hne : l ≠ [] := by
      rintro rfl
      cases htrap
    rw [if_pos htrap]
    exact ⟨true, ∅, findAllFrom_of_firstMatch?_eq_some isUnmarked_trapAnchor hne hfirst⟩
  · rw [if_neg fun h => htrap h.2] at hfirst
    rw [if_neg htrap]
    refine ⟨_, v, findAllFrom_of_firstMatch?_eq_none isUnmarked_trapAnchor ?_⟩
    intro before after hl hne
    subst hl
    cases before with
    | nil => exact hfirst
    | cons c before =>
      -- the newline of a line is at its end, so no line starts after a part of it
      have hlast : (c :: before).getLast? ≠ some '\n' := fun h =>
        hls.newline_not_mem hne (List.mem_of_getLast? h)
      refine firstMatch?_trapAnchor_eq_none (.inl ?_)
      simp [Look.holds, Cursor.after, hlast]

/-- The anchor is found on the lines with the call. -/
theorem findAllFrom_trapAnchor {acc : List Match} {barred : Bool} {s : Cursor} {v : Visits}
    {ls : List (List Char)} (hls : Lined ls) (hstart : ls ≠ [] → Look.lineStart.holds s = true) :
    trapAnchor.findAllFrom acc 0 barred s.prev s.pos ls.flatten v =
      acc.reverse ++ trapMatches s.pos ls := by
  -- the search comes to each line at its start
  induction ls generalizing acc barred s v with
  | nil =>
    rw [trapMatches, List.append_nil]
    exact findAllFrom_nil isUnmarked_trapAnchor (firstMatch?_trapAnchor_eq_none (.inr rfl))
  | cons l ls ih =>
    obtain ⟨barred', v', hline⟩ :=
      findAllFrom_trapAnchor_line acc barred v hls (hstart (List.cons_ne_nil l ls))
    have hrest : Lined ls ∧ (ls ≠ [] → Look.lineStart.holds (s.after l ls.flatten) = true) := by
      cases hls with
      | last => exact ⟨.nil, fun h => absurd rfl h⟩
      | line _ hls => exact ⟨hls, fun _ => by simp [Look.holds, Cursor.after]⟩
    rw [List.flatten_cons, hline, ih hrest.1 hrest.2, trapMatches, Cursor.after_pos]
    split
    · rw [List.reverse_cons, List.append_assoc, List.singleton_append]
    · rfl

/-- All matches of the anchor in a text. -/
theorem findAll_trapAnchor (text : List Char) :
    trapAnchor.findAll text = trapMatches 0 (lines text) := by
  have hfound := @findAllFrom_trapAnchor [] false (.start text) ∅ _ (lined_lines text) fun _ => rfl
  rw [flatten_lines] at hfound
  exact hfound

/-- Taking the matches out leaves the other lines; what is kept before the first line stays. -/
theorem splice_trapMatches (pos : Nat) (kept : List Char) (ls : List (List Char)) :
    Match.splice (fun _ => []) pos (kept ++ ls.flatten) (trapMatches (pos + kept.length) ls) =
      kept ++ (ls.filter fun l => !isTrapLine l).flatten := by
  -- kept lines pile up in front of the next match
  induction ls generalizing pos kept with
  | nil => rfl
  | cons l ls ih =>
    rw [trapMatches, List.filter_cons, List.flatten_cons]
    by_cases htrap : isTrapLine l = true
    · have hkept : (kept ++ (l ++ ls.flatten)).take (pos + kept.length - pos) = kept := by
        rw [Nat.add_sub_cancel_left, List.take_left]
      have hrest : (kept ++ (l ++ ls.flatten)).drop (pos + kept.length + l.length - pos) =
          ls.flatten := by
        rw [Nat.add_assoc, Nat.add_sub_cancel_left, ← List.append_assoc, ← List.length_append,
          List.drop_left]
      have hlater := ih (pos + kept.length + l.length) []
      simp only [List.nil_append, List.length_nil, Nat.add_zero] at hlater
      rw [if_pos htrap, if_neg (by simp [htrap]), Match.splice, hkept, hrest, hlater,
        List.append_nil]
    · have hlater := ih pos (kept ++ l)
      rw [List.length_append, ← Nat.add_assoc, List.append_assoc, List.append_assoc] at hlater
      rw [if_neg htrap, if_pos (by simp [htrap]), List.flatten_cons, hlater]

/-- The patch takes out the lines with the call and nothing else. -/
theorem apply_removeErrorTrap (text : List Char) :
    removeErrorTrap.apply text =
      (((lines text).filter fun l => !isTrapLine l).flatten,
        if (lines text).countP isTrapLine = 0 then .anchorMissing
        else .applied ((lines text).countP isTrapLine)) := by
  have hfound : removeErrorTrap.matchesIn text = trapMatches 0 (lines text) :=
    findAll_trapAnchor text
  have hsplice := splice_trapMatches 0 [] (lines text)
  have hlength := length_trapMatches 0 (lines text)
  rw [flatten_lines, List.nil_append, List.nil_append, List.length_nil] at hsplice
  have hunmarked : removeErrorTrap.isMarked text = false := rfl
  rw [Patch.apply, if_neg (by rw [hunmarked]; decide), hfound, ← hlength, ← hsplice]
  cases trapMatches 0 (lines text) with
  | nil => rfl
  | cons m ms => rfl

end EdgeBundle.Patch
