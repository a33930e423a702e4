import EdgeBundle.Pattern

/-!
# Ways to match

A pattern without marks can match at a place in several ways. Matching goes through them in order,
and the first that leads to an answer counts. So a search finds the first way at the first place
that has one, and nothing is found exactly if no place has any.

## Main definitions

* `Pattern.ways`: the ways to match at a place, in the order in which they are tried.

## Main statements

* `run_eq_firstWay`: matching goes through the ways in order.
* `mem_ways_text`, `mem_ways_seq` and the like: the ways of each form of pattern.
* `head?_ways_many_text`: the first way over as few characters as possible.
* `find?_eq_none_iff`: nothing is found exactly if no place has a way.
* `exists_way_of_find?`: what is found is the first way at some place.
* `findAllFrom_of_firstMatch?_eq_none`, `findAllFrom_of_firstMatch?_eq_some`: how a search for all
  matches goes on.
-/

namespace EdgeBundle

namespace Cursor

/-- The place after the characters `cs`, before the characters `rest`. -/
def after (s : Cursor) (cs rest : List Char) : Cursor :=
  ⟨cs.getLast?.or s.prev, s.pos + cs.length, rest⟩

@[simp]
theorem after_pos (s : Cursor) (cs rest : List Char) : (s.after cs rest).pos = s.pos + cs.length :=
  rfl

@[simp]
theorem after_rest (s : Cursor) (cs rest : List Char) : (s.after cs rest).rest = rest := rfl

theorem after_append (s : Cursor) (as bs rest rest' : List Char) :
    (s.after as rest').after bs rest = s.after (as ++ bs) rest := by
  rw [after, after, after, List.getLast?_append, Cursor.mk.injEq]
  exact ⟨Option.or_assoc.symm, by rw [List.length_append, Nat.add_assoc], rfl⟩

theorem after_cons (s : Cursor) (c : Char) (cs rest rest' : List Char) :
    (s.after [c] rest').after cs rest = s.after (c :: cs) rest :=
  after_append s [c] cs rest rest'

theorem skip_length {s : Cursor} {cs rest : List Char} (h : s.rest = cs ++ rest) :
    s.skip cs.length = s.after cs rest := by
  induction cs generalizing s with
  | nil => rw [List.nil_append] at h; rw [← h]; rfl
  | cons c cs ih =>
    obtain ⟨prev, pos, _⟩ := s
    cases h
    rw [List.length_cons, skip]
    exact (ih rfl).trans (after_cons ⟨prev, pos, c :: (cs ++ rest)⟩ c cs rest (cs ++ rest))

end Cursor

namespace Pattern

/-- A place that a match comes to, with the matches remembered by then. -/
abbrev Way := Cursor × Groups

/-- Whether a pattern is without marks and repeats single characters only. -/
def isUnmarked : Pattern → Bool
  | .empty | .text _ | .one _ | .look _ => true
  | .many _ _ mark => mark.isNone
  | .seq a b | .alt a b => a.isUnmarked && b.isUnmarked
  | .opt _ p | .group _ p => p.isUnmarked
  | .plus _ _ | .once _ => false

/-- The places that are reached over characters of a class, the nearest first. -/
def stretch (c : CharClass) (prev : Option Char) (pos : Nat) : List Char → List Cursor
  | [] => [⟨prev, pos, []⟩]
  | ch :: cs =>
    ⟨prev, pos, ch :: cs⟩ :: if c.contains ch then stretch c (some ch) (pos + 1) cs else []

/-- The ways to match at a place, in the order in which they are tried. -/
def ways (p : Pattern) (s : Cursor) (g : Groups) : List Way :=
  match p with
  | .empty => [(s, g)]
  | .text cs => if cs.isPrefixOf s.rest then [(s.skip cs.length, g)] else []
  | .one c =>
    match s.rest with
    | [] => []
    | ch :: cs => if c.contains ch then [(⟨some ch, s.pos + 1, cs⟩, g)] else []
  | .many greedy c _ =>
    let near := (stretch c s.prev s.pos s.rest).map fun t => (t, g)
    if greedy then near.reverse else near
  | .look l => if l.holds s then [(s, g)] else []
  | .seq a b => (ways a s g).flatMap fun w => ways b w.1 w.2
  | .alt a b => ways a s g ++ ways b s g
  | .opt greedy p => if greedy then ways p s g ++ [(s, g)] else (s, g) :: ways p s g
  | .group index p => (ways p s g).map fun w => (w.1, (index, s.pos, w.1.pos) :: w.2)
  | .plus _ _ | .once _ => []

/-! ## Going through the ways -/

section Trials

variable {α : Type}

/-- The first attempt over some ways that succeeds. -/
def firstWay (k : Cursor → Groups → Trial α) : List Way → Trial α
  | [] => Trial.fail
  | w :: ws => Trial.orElse (k w.1 w.2) (firstWay k ws)

theorem orElse_fail (a : Trial α) : Trial.orElse a Trial.fail = a := by
  funext v
  rw [Trial.orElse]
  split
  next h => exact h.symm
  next h => exact h.symm

theorem orElse_assoc (a b c : Trial α) :
    Trial.orElse (Trial.orElse a b) c = Trial.orElse a (Trial.orElse b c) := by
  funext v
  simp only [Trial.orElse]
  rcases a v with ⟨_ | _, v⟩ <;> rfl

theorem firstWay_singleton (k : Cursor → Groups → Trial α) (w : Way) :
    firstWay k [w] = k w.1 w.2 :=
  orElse_fail _

theorem firstWay_append (k : Cursor → Groups → Trial α) (ws ws' : List Way) :
    firstWay k (ws ++ ws') = Trial.orElse (firstWay k ws) (firstWay k ws') := by
  induction ws with
  | nil => rfl
  | cons w ws ih => rw [List.cons_append, firstWay, ih, firstWay, orElse_assoc]

theorem firstWay_flatMap (k : Cursor → Groups → Trial α) (next : Way → List Way) (ws : List Way) :
    firstWay k (ws.flatMap next) = firstWay (fun t g => firstWay k (next (t, g))) ws := by
  induction ws with
  | nil => rfl
  | cons w ws ih => rw [List.flatMap_cons, firstWay_append, ih, firstWay]

theorem firstWay_map (k : Cursor → Groups → Trial α) (f : Way → Way) (ws : List Way) :
    firstWay k (ws.map f) = firstWay (fun t g => k (f (t, g)).1 (f (t, g)).2) ws := by
  induction ws with
  | nil => rfl
  | cons w ws ih => rw [List.map_cons, firstWay, ih, firstWay]

theorem firstOf_eq_firstWay (k : Cursor → Groups → Trial α) (g : Groups) (places : List Cursor) :
    Trial.firstOf (fun t => k t g) places = firstWay k (places.map fun t => (t, g)) := by
  induction places with
  | nil => rfl
  | cons s places ih =>
    funext v
    rw [Trial.firstOf, ih, List.map_cons, firstWay]

theorem reach_none (c : CharClass) (acc : List Cursor) (prev : Option Char) (pos : Nat)
    (rest : List Char) (v : Visits) :
    reach c none acc prev pos rest v = ((stretch c prev pos rest).reverse ++ acc, v) := by
  induction rest generalizing acc prev pos with
  | nil => rfl
  | cons ch cs ih =>
    rw [reach, stretch]
    change (if c.contains ch then
        reach c none (⟨prev, pos, ch :: cs⟩ :: acc) (some ch) (pos + 1) cs v
      else (⟨prev, pos, ch :: cs⟩ :: acc, v)) = _
    split
    · rw [ih, List.reverse_cons, List.append_assoc, List.singleton_append]
    · rfl

theorem reachLazily_none (c : CharClass) (k : Cursor → Trial α) (prev : Option Char) (pos : Nat)
    (rest : List Char) :
    reachLazily c none k prev pos rest = Trial.firstOf k (stretch c prev pos rest) := by
  induction rest generalizing prev pos with
  | nil =>
    funext v
    exact (congrFun (orElse_fail _) v).symm
  | cons ch cs ih =>
    funext v
    simp only [reachLazily, Trial.after, Visits.pass, stretch, Trial.firstOf]
    split
    · rw [ih]
    · rfl

/-- Matching goes through the ways in order. -/
theorem run_eq_firstWay {p : Pattern} (hp : p.isUnmarked = true) (s : Cursor) (g : Groups)
    (k : Cursor → Groups → Trial α) : run p s g k = firstWay k (ways p s g) := by
  induction p generalizing s g k with
  | empty => exact (firstWay_singleton k (s, g)).symm
  | text cs =>
    funext v
    rw [run, ways]
    split
    · rw [firstWay_singleton]
    · rfl
  | one c =>
    funext v
    rw [run, ways]
    cases s.rest with
    | nil => rfl
    | cons ch cs =>
      simp only
      split
      · rw [firstWay_singleton]
      · rfl
  | many greedy c mark =>
    obtain rfl : mark = none := Option.isNone_iff_eq_none.mp hp
    funext v
    rw [run, ways]
    split
    -- as many characters as possible: the farthest place comes first
    · rw [reach_none, List.append_nil, ← List.map_reverse, ← firstOf_eq_firstWay]
    · rw [reachLazily_none, ← firstOf_eq_firstWay]
  | look l =>
    funext v
    rw [run, ways]
    split
    · rw [firstWay_singleton]
    · rfl
  | seq a b iha ihb =>
    rw [isUnmarked, Bool.and_eq_true] at hp
    funext v
    -- every way of the first part goes on with all ways of the second
    rw [run, iha hp.1, ways, firstWay_flatMap]
    simp only [ihb hp.2]
  | alt a b iha ihb =>
    rw [isUnmarked, Bool.and_eq_true] at hp
    funext v
    rw [run, iha hp.1, ihb hp.2, ways, firstWay_append]
  | opt greedy p ih =>
    funext v
    rw [run, ih hp, ways, Trial.prefer]
    split
    · rw [firstWay_append, firstWay_singleton]
    · rw [firstWay]
  | group index p ih =>
    funext v
    rw [run, ih hp, ways, firstWay_map]
  | plus | once => cases hp

end Trials

/-! ## Places that ways come to -/

section Places

variable {s : Cursor} {g : Groups} {w : Way}

theorem mem_ways_text {cs : List Char} :
    w ∈ ways (.text cs) s g ↔ ∃ rest, s.rest = cs ++ rest ∧ w = (s.after cs rest, g) := by
  change w ∈ (if cs.isPrefixOf s.rest then [(s.skip cs.length, g)] else []) ↔ _
  split
  next h =>
    obtain ⟨rest, hrest⟩ := List.isPrefixOf_iff_prefix.mp h
    rw [List.mem_singleton, Cursor.skip_length hrest.symm]
    constructor
    · exact fun hw => ⟨rest, hrest.symm, hw⟩
    · rintro ⟨rest', hrest', rfl⟩
      rw [List.append_cancel_left (hrest.trans hrest')]
  next h =>
    refine iff_of_false (by simp) ?_
    rintro ⟨rest, hrest, -⟩
    exact h (List.isPrefixOf_iff_prefix.mpr ⟨rest, hrest.symm⟩)

theorem mem_ways_one {c : CharClass} :
    w ∈ ways (.one c) s g ↔
      ∃ ch rest, s.rest = ch :: rest ∧ c.contains ch = true ∧ w = (s.after [ch] rest, g) := by
  obtain ⟨prev, pos, rest⟩ := s
  rw [ways]
  cases rest with
  | nil =>
    refine iff_of_false (by simp) ?_
    rintro ⟨ch, rest, hrest, -⟩
    cases hrest
  | cons ch cs =>
    simp only
    split
    next hch =>
      rw [List.mem_singleton]
      constructor
      · rintro rfl
        exact ⟨ch, cs, rfl, hch, rfl⟩
      · rintro ⟨ch', rest, hrest, -, rfl⟩
        cases hrest
        rfl
    next hch =>
      refine iff_of_false (by simp) ?_
      rintro ⟨ch', rest, hrest, hch', -⟩
      cases hrest
      exact hch hch'

theorem mem_stretch {c : CharClass} {prev : Option Char} {pos : Nat} {cs : List Char}
    {t : Cursor} :
    t ∈ stretch c prev pos cs ↔
      ∃ as bs, cs = as ++ bs ∧ (∀ ch ∈ as, c.contains ch = true) ∧
        t = Cursor.after ⟨prev, pos, cs⟩ as bs := by
  induction cs generalizing prev pos with
  | nil =>
    rw [stretch, List.mem_singleton]
    constructor
    · rintro rfl
      exact ⟨[], [], rfl, by simp, rfl⟩
    · rintro ⟨as, bs, hcs, -, rfl⟩
      obtain ⟨rfl, rfl⟩ := List.append_eq_nil_iff.mp hcs.symm
      rfl
  | cons d cs ih =>
    rw [stretch, List.mem_cons]
    constructor
    · rintro (rfl | ht)
      · exact ⟨[], d :: cs, rfl, by simp, rfl⟩
      -- a place further on is reached over the next character
      split at ht
      next hd =>
        obtain ⟨as, bs, rfl, has, rfl⟩ := ih.mp ht
        refine ⟨d :: as, bs, rfl, List.forall_mem_cons.mpr ⟨hd, has⟩, ?_⟩
        exact Cursor.after_cons ⟨prev, pos, d :: (as ++ bs)⟩ d as bs (as ++ bs)
      next => cases ht
    · rintro ⟨as, bs, hcs, has, rfl⟩
      cases as with
      | nil =>
        left
        rw [List.nil_append] at hcs
        rw [← hcs]
        rfl
      | cons e as =>
        obtain ⟨rfl, rfl⟩ := List.cons.inj hcs
        obtain ⟨hd, has⟩ := List.forall_mem_cons.mp has
        right
        rw [if_pos hd, ih]
        refine ⟨as, bs, rfl, has, ?_⟩
        exact (Cursor.after_cons ⟨prev, pos, d :: (as ++ bs)⟩ d as bs (as ++ bs)).symm

theorem mem_ways_many {greedy : Bool} {c : CharClass} {mark : Option Nat} :
    w ∈ ways (.many greedy c mark) s g ↔
      ∃ cs rest, s.rest = cs ++ rest ∧ (∀ ch ∈ cs, c.contains ch = true) ∧
        w = (s.after cs rest, g) := by
  have hnear : w ∈ ways (.many greedy c mark) s g ↔
      w ∈ (stretch c s.prev s.pos s.rest).map fun t => (t, g) := by
    cases greedy with
    | true => exact List.mem_reverse
    | false => exact Iff.rfl
  rw [hnear, List.mem_map]
  constructor
  · rintro ⟨t, ht, rfl⟩
    obtain ⟨cs, rest, hcs, hall, rfl⟩ := mem_stretch.mp ht
    exact ⟨cs, rest, hcs, hall, rfl⟩
  · rintro ⟨cs, rest, hcs, hall, rfl⟩
    exact ⟨_, mem_stretch.mpr ⟨cs, rest, hcs, hall, rfl⟩, rfl⟩

theorem mem_ways_look {l : Look} : w ∈ ways (.look l) s g ↔ l.holds s = true ∧ w = (s, g) := by
  change w ∈ (if l.holds s then [(s, g)] else []) ↔ _
  split
  next h => simp [h]
  next h => simp [h]

theorem mem_ways_seq {a b : Pattern} :
    w ∈ ways (.seq a b) s g ↔ ∃ t h, (t, h) ∈ ways a s g ∧ w ∈ ways b t h := by
  change w ∈ (ways a s g).flatMap (fun t => ways b t.1 t.2) ↔ _
  rw [List.mem_flatMap, Prod.exists]

theorem mem_ways_alt {a b : Pattern} :
    w ∈ ways (.alt a b) s g ↔ w ∈ ways a s g ∨ w ∈ ways b s g :=
  List.mem_append

theorem mem_ways_opt {greedy : Bool} {p : Pattern} :
    w ∈ ways (.opt greedy p) s g ↔ w ∈ ways p s g ∨ w = (s, g) := by
  cases greedy with
  | true =>
    change w ∈ ways p s g ++ [(s, g)] ↔ _
    rw [List.mem_append, List.mem_singleton]
  | false =>
    change w ∈ (s, g) :: ways p s g ↔ _
    rw [List.mem_cons, or_comm]

theorem mem_ways_concat_cons {p : Pattern} {ps : List Pattern} :
    w ∈ ways (concat (p :: ps)) s g ↔ ∃ t h, (t, h) ∈ ways p s g ∧ w ∈ ways (concat ps) t h := by
  cases ps with
  | nil =>
    constructor
    · exact fun h => ⟨w.1, w.2, h, List.mem_singleton_self w⟩
    · rintro ⟨t, h, hp, hw⟩
      rwa [List.mem_singleton.mp hw]
  | cons q qs => exact mem_ways_seq

theorem mem_ways_concat_append {ps qs : List Pattern} :
    w ∈ ways (concat (ps ++ qs)) s g ↔
      ∃ t h, (t, h) ∈ ways (concat ps) s g ∧ w ∈ ways (concat qs) t h := by
  induction ps generalizing s g with
  | nil =>
    constructor
    · exact fun h => ⟨s, g, List.mem_singleton_self _, h⟩
    · rintro ⟨t, h, hp, hw⟩
      cases List.mem_singleton.mp hp
      exact hw
  | cons p ps ih =>
    simp only [List.cons_append, mem_ways_concat_cons, ih]
    constructor
    · rintro ⟨t, h, hp, t', h', hps, hw⟩
      exact ⟨t', h', ⟨t, h, hp, hps⟩, hw⟩
    · rintro ⟨t', h', ⟨t, h, hp, hps⟩, hw⟩
      exact ⟨t, h, hp, t', h', hps, hw⟩

theorem mem_ways_group {index : Nat} {p : Pattern} :
    w ∈ ways (.group index p) s g ↔
      ∃ t h, (t, h) ∈ ways p s g ∧ w = (t, (index, s.pos, t.pos) :: h) := by
  change w ∈ (ways p s g).map (fun t => (t.1, (index, s.pos, t.1.pos) :: t.2)) ↔ _
  rw [List.mem_map, Prod.exists]
  simp only [eq_comm]

/-! ## The first way -/

/-- The first way of patterns in sequence goes on with the first way of the second one. -/
theorem head?_ways_seq {a b : Pattern} (h : (ways (.seq a b) s g).head? = some w) :
    ∃ t k, (t, k) ∈ ways a s g ∧ (ways b t k).head? = some w := by
  change ((ways a s g).flatMap fun t => ways b t.1 t.2).head? = some w at h
  rw [List.head?_flatMap] at h
  obtain ⟨⟨t, k⟩, hmem, hhead⟩ := List.exists_of_findSome?_eq_some h
  exact ⟨t, k, hmem, hhead⟩

theorem head?_ways_group {index : Nat} {p : Pattern}
    (h : (ways (.group index p) s g).head? = some w) :
    ∃ t k, (ways p s g).head? = some (t, k) ∧ w = (t, (index, s.pos, t.pos) :: k) := by
  change ((ways p s g).map fun t => (t.1, (index, s.pos, t.1.pos) :: t.2)).head? = some w at h
  rw [List.head?_map, Option.map_eq_some_iff] at h
  obtain ⟨⟨t, k⟩, hhead, rfl⟩ := h
  exact ⟨t, k, hhead, rfl⟩

/-- After as few characters as possible a text stands for the first time. -/
theorem head?_ways_many_text {c : CharClass} {mark : Option Nat} {d : List Char}
    (h : (ways (.seq (.many false c mark) (.text d)) s g).head? = some w) :
    ∃ skipped rest, s.rest = skipped ++ (d ++ rest) ∧ w = (s.after (skipped ++ d) rest, g) ∧
      ∀ as bs, skipped = as ++ bs → bs ≠ [] → ¬ d <+: bs ++ (d ++ rest) := by
  obtain ⟨prev, pos, cs⟩ := s
  change (((stretch c prev pos cs).map fun t => (t, g)).flatMap
    fun t => ways (.text d) t.1 t.2).head? = some w at h
  rw [List.flatMap_map] at h
  induction cs generalizing prev pos with
  | nil =>
    rw [stretch, List.flatMap_singleton] at h
    obtain ⟨rest, hrest, rfl⟩ := mem_ways_text.mp (List.mem_of_head? h)
    refine ⟨[], rest, hrest, rfl, fun as bs hnil hne => ?_⟩
    exact absurd (List.append_eq_nil_iff.mp hnil.symm).2 hne
  | cons ch cs ih =>
    rw [stretch, List.flatMap_cons, List.head?_append, Option.or_eq_some_iff] at h
    rcases h with h | ⟨hnone, h⟩
    · obtain ⟨rest, hrest, rfl⟩ := mem_ways_text.mp (List.mem_of_head? h)
      refine ⟨[], rest, hrest, rfl, fun as bs hnil hne => ?_⟩
      exact absurd (List.append_eq_nil_iff.mp hnil.symm).2 hne
    -- the text does not stand here
    · have hnot : ¬ d <+: ch :: cs := by
        rintro ⟨rest, hrest⟩
        have hmem := (mem_ways_text (s := ⟨prev, pos, ch :: cs⟩) (g := g)).mpr
          ⟨rest, hrest.symm, rfl⟩
        rw [List.head?_eq_none_iff] at hnone
        rw [hnone] at hmem
        cases hmem
      split at h
      next =>
        obtain ⟨skipped, rest, rfl, rfl, hfirst⟩ := ih (some ch) (pos + 1) h
        refine ⟨ch :: skipped, rest, rfl, ?_, fun as bs hsplit hne => ?_⟩
        · rw [List.cons_append, ← Cursor.after_cons ⟨prev, pos, ch :: (skipped ++ (d ++ rest))⟩ ch
            (skipped ++ d) rest (skipped ++ (d ++ rest))]
          rfl
        · cases as with
          | nil =>
            rw [List.nil_append] at hsplit
            subst hsplit
            exact hnot
          | cons a as => exact hfirst as bs (List.cons.inj hsplit).2 hne
      next => cases h

end Places

/-! ## Texts of plain patterns -/

/-- Whether what a pattern matches hangs on the text alone, and nothing of it is remembered. -/
def isPlain : Pattern → Bool
  | .empty | .text _ | .one _ | .many _ _ _ => true
  | .seq a b | .alt a b => a.isPlain && b.isPlain
  | .opt _ p => p.isPlain
  | .look _ | .group _ _ | .plus _ _ | .once _ => false

/-- The texts that a plain pattern matches. -/
def Accepts : Pattern → List Char → Prop
  | .empty, cs => cs = []
  | .text ds, cs => cs = ds
  | .one c, cs => ∃ ch, c.contains ch = true ∧ cs = [ch]
  | .many _ c _, cs => ∀ ch ∈ cs, c.contains ch = true
  | .seq a b, cs => ∃ as bs, a.Accepts as ∧ b.Accepts bs ∧ cs = as ++ bs
  | .alt a b, cs => a.Accepts cs ∨ b.Accepts cs
  | .opt _ p, cs => p.Accepts cs ∨ cs = []
  | .look _, _ | .group _ _, _ | .plus _ _, _ | .once _, _ => False

theorem accepts_concat_cons {p : Pattern} {ps : List Pattern} {cs : List Char} :
    (concat (p :: ps)).Accepts cs ↔
      ∃ as bs, p.Accepts as ∧ (concat ps).Accepts bs ∧ cs = as ++ bs := by
  cases ps with
  | nil =>
    constructor
    · exact fun h => ⟨cs, [], h, rfl, (List.append_nil cs).symm⟩
    · rintro ⟨as, bs, has, hbs, rfl⟩
      obtain rfl : bs = [] := hbs
      rwa [List.append_nil]
  | cons q qs => exact Iff.rfl

/-- The ways of a plain pattern read the texts that it matches. -/
theorem mem_ways_iff_accepts {p : Pattern} (hp : p.isPlain = true) {s : Cursor} {g : Groups}
    {w : Way} :
    w ∈ ways p s g ↔
      ∃ cs rest, s.rest = cs ++ rest ∧ p.Accepts cs ∧ w = (s.after cs rest, g) := by
  induction p generalizing s g w with
  | empty =>
    constructor
    · exact fun h => ⟨[], s.rest, rfl, rfl, List.mem_singleton.mp h⟩
    · rintro ⟨cs, rest, hrest, hcs, rfl⟩
      obtain rfl : cs = [] := hcs
      rw [List.nil_append] at hrest
      rw [← hrest]
      exact List.mem_singleton_self _
  | text ds =>
    rw [mem_ways_text]
    constructor
    · exact fun ⟨rest, hrest, hw⟩ => ⟨ds, rest, hrest, rfl, hw⟩
    · rintro ⟨_, rest, hrest, rfl, hw⟩
      exact ⟨rest, hrest, hw⟩
  | one c =>
    rw [mem_ways_one]
    constructor
    · rintro ⟨ch, rest, hrest, hch, hw⟩
      exact ⟨[ch], rest, hrest, ⟨ch, hch, rfl⟩, hw⟩
    · rintro ⟨_, rest, hrest, ⟨ch, hch, rfl⟩, hw⟩
      exact ⟨ch, rest, hrest, hch, hw⟩
  | many => exact mem_ways_many
  | seq a b iha ihb =>
    rw [isPlain, Bool.and_eq_true] at hp
    simp only [mem_ways_seq, iha hp.1, ihb hp.2, Prod.mk.injEq]
    -- the text of the second part starts where that of the first one ends
    constructor
    · rintro ⟨_, _, ⟨as, _, hrest, has, rfl, rfl⟩, bs, rest, rfl, hbs, rfl⟩
      refine ⟨as ++ bs, rest, ?_, ⟨as, bs, has, hbs, rfl⟩, ?_⟩
      · rw [hrest, List.append_assoc]
      · rw [Cursor.after_append]
    · rintro ⟨_, rest, hrest, ⟨as, bs, has, hbs, rfl⟩, rfl⟩
      refine ⟨_, g, ⟨as, bs ++ rest, ?_, has, rfl, rfl⟩, bs, rest, rfl, hbs, ?_⟩
      · rw [hrest, List.append_assoc]
      · rw [Cursor.after_append]
  | alt a b iha ihb =>
    rw [isPlain, Bool.and_eq_true] at hp
    rw [mem_ways_alt, iha hp.1, ihb hp.2]
    constructor
    · rintro (⟨cs, rest, hrest, hcs, hw⟩ | ⟨cs, rest, hrest, hcs, hw⟩)
      · exact ⟨cs, rest, hrest, .inl hcs, hw⟩
      · exact ⟨cs, rest, hrest, .inr hcs, hw⟩
    · rintro ⟨cs, rest, hrest, hcs | hcs, hw⟩
      · exact .inl ⟨cs, rest, hrest, hcs, hw⟩
      · exact .inr ⟨cs, rest, hrest, hcs, hw⟩
  | opt greedy p ih =>
    rw [mem_ways_opt, ih hp]
    constructor
    · rintro (⟨cs, rest, hrest, hcs, hw⟩ | rfl)
      · exact ⟨cs, rest, hrest, .inl hcs, hw⟩
      · exact ⟨[], s.rest, rfl, .inr rfl, rfl⟩
    · rintro ⟨cs, rest, hrest, hcs | rfl, rfl⟩
      · exact .inl ⟨cs, rest, hrest, hcs, rfl⟩
      · rw [List.nil_append] at hrest
        rw [← hrest]
        exact .inr rfl
  | look | group | plus | once => cases hp

/-! ## Searching -/

section Search

variable {p : Pattern}

/-- The match of the first way at a place. -/
def firstMatch? (p : Pattern) (s : Cursor) : Option Match :=
  (ways p s []).head?.map fun w => ⟨s.pos, w.1.pos, w.2⟩

theorem matchAt_eq (hp : p.isUnmarked = true) (s : Cursor) (v : Visits) :
    p.matchAt s v = (p.firstMatch? s, v) := by
  rw [matchAt, run_eq_firstWay hp, firstMatch?]
  cases ways p s [] <;> rfl

theorem firstMatch?_eq_none_iff {s : Cursor} : p.firstMatch? s = none ↔ ways p s [] = [] := by
  rw [firstMatch?, Option.map_eq_none_iff, List.head?_eq_none_iff]

theorem firstMatch?_eq_some {s : Cursor} {w : Way} (hmem : w ∈ ways p s [])
    (hunique : ∀ w' ∈ ways p s [], w' = w) : p.firstMatch? s = some ⟨s.pos, w.1.pos, w.2⟩ := by
  rw [firstMatch?]
  cases hways : ways p s [] with
  | nil => rw [hways] at hmem; cases hmem
  | cons w' ws => rw [hunique w' (hways ▸ List.mem_cons_self)]; rfl

/-- From a place on, nothing is found exactly if no place has a way. -/
theorem findFrom_eq_none_iff (hp : p.isUnmarked = true) {s : Cursor} {v : Visits} :
    p.findFrom s.prev s.pos s.rest v = none ↔
      ∀ before rest, s.rest = before ++ rest → ways p (s.after before rest) [] = [] := by
  obtain ⟨prev, pos, cs⟩ := s
  -- the place before the first character is tried first, and then the places after it
  induction cs generalizing prev pos with
  | nil =>
    rw [findFrom, matchAt_eq hp, firstMatch?_eq_none_iff]
    constructor
    · rintro h before rest hcs
      obtain ⟨rfl, rfl⟩ := List.append_eq_nil_iff.mp hcs.symm
      exact h
    · exact fun h => h [] [] rfl
  | cons c cs ih =>
    rw [findFrom, matchAt_eq hp]
    constructor
    · intro h before rest hcs
      split at h
      next => cases h
      next hnone =>
        cases (Prod.mk.inj hnone).2
        cases before with
        | nil =>
          rw [List.nil_append] at hcs
          rw [← hcs]
          exact firstMatch?_eq_none_iff.mp (Prod.mk.inj hnone).1
        | cons d before =>
          obtain ⟨rfl, rfl⟩ := List.cons.inj hcs
          have hlater := (ih (some c) (pos + 1)).mp h before rest rfl
          rwa [← Cursor.after_cons _ c before rest (before ++ rest)]
    · intro h
      have hnone : p.firstMatch? ⟨prev, pos, c :: cs⟩ = none :=
        firstMatch?_eq_none_iff.mpr (h [] (c :: cs) rfl)
      rw [hnone]
      refine (ih (some c) (pos + 1)).mpr fun before rest hcs => ?_
      cases hcs
      have hlater := h (c :: before) rest rfl
      rwa [← Cursor.after_cons _ c before rest (before ++ rest)] at hlater

/-- Nothing is found in a text exactly if no place has a way. -/
theorem find?_eq_none_iff (hp : p.isUnmarked = true) {text : List Char} :
    p.find? text = none ↔
      ∀ before rest, text = before ++ rest →
        ways p ((Cursor.start text).after before rest) [] = [] :=
  @findFrom_eq_none_iff p hp (Cursor.start text) ∅

/-- What is found from a place on is the first way at some place. -/
theorem exists_way_of_findFrom (hp : p.isUnmarked = true) {s : Cursor} {v : Visits} {m : Match}
    (h : p.findFrom s.prev s.pos s.rest v = some m) :
    ∃ before rest w, s.rest = before ++ rest ∧
      (ways p (s.after before rest) []).head? = some w ∧
      m = ⟨s.pos + before.length, w.1.pos, w.2⟩ := by
  obtain ⟨prev, pos, cs⟩ := s
  have hhere {cs : List Char} {prev pos} (hfirst : p.firstMatch? ⟨prev, pos, cs⟩ = some m) :
      ∃ before rest w, cs = before ++ rest ∧
        (ways p (Cursor.after ⟨prev, pos, cs⟩ before rest) []).head? = some w ∧
        m = ⟨pos + before.length, w.1.pos, w.2⟩ := by
    obtain ⟨w, hw, rfl⟩ := Option.map_eq_some_iff.mp hfirst
    exact ⟨[], cs, w, rfl, hw, rfl⟩
  induction cs generalizing prev pos with
  | nil =>
    rw [findFrom, matchAt_eq hp] at h
    exact hhere h
  | cons c cs ih =>
    rw [findFrom, matchAt_eq hp] at h
    cases hfirst : p.firstMatch? ⟨prev, pos, c :: cs⟩ with
    | some m' =>
      rw [hfirst] at h
      cases h
      exact hhere hfirst
    -- the search goes on behind the character
    | none =>
      rw [hfirst] at h
      obtain ⟨before, rest, w, hcs, hw, rfl⟩ := ih (some c) (pos + 1) h
      refine ⟨c :: before, rest, w, congrArg (c :: ·) hcs, ?_, ?_⟩
      · rwa [← Cursor.after_cons ⟨prev, pos, c :: cs⟩ c before rest cs]
      · rw [List.length_cons, Match.mk.injEq]
        exact ⟨by rw [Nat.add_assoc, Nat.add_comm 1], rfl, rfl⟩

/-- What is found in a text is the first way at some place of it. -/
theorem exists_way_of_find? (hp : p.isUnmarked = true) {text : List Char} {m : Match}
    (h : p.find? text = some m) :
    ∃ before rest w, text = before ++ rest ∧
      (ways p ((Cursor.start text).after before rest) []).head? = some w ∧
      m = ⟨before.length, w.1.pos, w.2⟩ := by
  obtain ⟨before, rest, w, htext, hw, rfl⟩ := @exists_way_of_findFrom p hp (.start text) ∅ m h
  exact ⟨before, rest, w, htext, hw, by rw [Cursor.start, Nat.zero_add]⟩

/-! ## Searching on -/

variable {acc : List Match} {barred : Bool} {v : Visits}

/-- The rest of a match is passed over. -/
theorem findAllFrom_inside (s : Cursor) (cs rest : List Char) :
    p.findAllFrom acc cs.length barred s.prev s.pos (cs ++ rest) v =
      p.findAllFrom acc 0 (barred || !cs.isEmpty) (s.after cs rest).prev (s.after cs rest).pos
        rest v := by
  induction cs generalizing s barred with
  | nil => simp [Cursor.after]
  | cons c cs ih =>
    rw [List.length_cons, List.cons_append, findAllFrom, ← Cursor.after_cons s c cs rest rest]
    refine (ih (s.after [c] rest)).trans ?_
    cases cs <;> simp

/-- Characters at which nothing matches are passed over. -/
theorem findAllFrom_of_firstMatch?_eq_none (hp : p.isUnmarked = true) {s : Cursor}
    {cs rest : List Char}
    (h : ∀ before after, cs = before ++ after → after ≠ [] →
      p.firstMatch? (s.after before (after ++ rest)) = none) :
    p.findAllFrom acc 0 barred s.prev s.pos (cs ++ rest) v =
      p.findAllFrom acc 0 (barred && cs.isEmpty) (s.after cs rest).prev (s.after cs rest).pos
        rest v := by
  induction cs generalizing s barred with
  | nil => simp [Cursor.after]
  | cons c cs ih =>
    have hnone : p.firstMatch? ⟨s.prev, s.pos, c :: (cs ++ rest)⟩ = none :=
      h [] (c :: cs) rfl (List.cons_ne_nil _ _)
    rw [List.cons_append, findAllFrom, matchAt_eq hp, hnone, ← Cursor.after_cons s c cs rest rest]
    refine (ih (s := s.after [c] rest) fun before after hcs hne => ?_).trans ?_
    · rw [Cursor.after_cons]
      exact h (c :: before) after (by rw [hcs, List.cons_append]) hne
    · simp

/-- A match that is not empty is found, and the search goes on after it. -/
theorem findAllFrom_of_firstMatch?_eq_some (hp : p.isUnmarked = true) {s : Cursor}
    {cs rest : List Char} {g : Groups} (hcs : cs ≠ [])
    (h : p.firstMatch? ⟨s.prev, s.pos, cs ++ rest⟩ = some ⟨s.pos, s.pos + cs.length, g⟩) :
    p.findAllFrom acc 0 barred s.prev s.pos (cs ++ rest) v =
      p.findAllFrom (⟨s.pos, s.pos + cs.length, g⟩ :: acc) 0 true (s.after cs rest).prev
        (s.after cs rest).pos rest ∅ := by
  obtain ⟨c, cs, rfl⟩ := List.exists_cons_of_ne_nil hcs
  rw [List.cons_append] at h ⊢
  rw [findAllFrom, matchAt_eq hp, h]
  simp only [Nat.add_sub_cancel_left, List.length_cons]
  rw [← Cursor.after_cons s c cs rest rest]
  refine (findAllFrom_inside (s.after [c] rest) cs rest).trans ?_
  cases cs <;> simp

/-- At the end of a text at which nothing matches, the search is over. -/
theorem findAllFrom_nil (hp : p.isUnmarked = true) {prev : Option Char} {pos : Nat}
    (h : p.firstMatch? ⟨prev, pos, []⟩ = none) :
    p.findAllFrom acc 0 barred prev pos [] v = acc.reverse := by
  rw [findAllFrom, matchAt_eq hp, h]

end Search

end Pattern

end EdgeBundle
