import EdgeBundle.Proofs.Module.Mention
import EdgeBundle.Proofs.Module.Published

/-!
# Changes that show

What takes the place of a statement does not start with the letter of a keyword, so that it differs
from the statement. Only an import of nothing is taken out without a trace, and then the quotes of
its specifier are missing from the text: no other statement puts quotes in, unless it refers to a
module. So the text of a module that refers to nothing and publishes no names is that of its source
only if none of its statements is changed.

## Main statements

* `LinkedModule.replacement_of_effect`: what takes the place of a statement without reference.
* `LinkedModule.exists_cut_of_mem_outline`: what it takes the place of.
* `LinkedModule.filterMap_edit_eq_nil`: a text that is kept is not changed.
-/

namespace EdgeBundle

open Lexer Statement

/-- Quotes of strings. -/
def isQuote (c : Char) : Bool :=
  c == '\'' || c == '"'

/-- The text has no quotes. -/
def Unquoted (text : String) : Prop :=
  ∀ c ∈ text.toList, isQuote c = false

instance (text : String) : Decidable (Unquoted text) :=
  List.decidableBAll (fun c => isQuote c = false) text.toList

/-- Names that the clause speaks of. -/
def ImportClause.mentioned (c : ImportClause) : List String :=
  c.defaultName.toList ++ c.namespaceName.toList ++
    (c.names.getD []).flatMap fun p => [p.name, p.asName]

/-! ## Imports with bindings -/

namespace Statement

/-- Names of a clause are identifiers there. -/
theorem isNameIn_of_clause {ts : List Token} {c : ImportClause}
    (h : Clause ts c ∨ Unseparated ts c) : ∀ n ∈ c.mentioned, IsNameIn ts n := by
  have hbindings {ts : List Token} {name : Option String} {names : Option (List NamePair)}
      (h : Bindings ts name names) (defaultName : Option String) :
      ∀ n ∈ (⟨defaultName, name, names⟩ : ImportClause).mentioned,
        n ∈ defaultName ∨ IsNameIn ts n := by
    intro n hn
    simp only [ImportClause.mentioned, List.mem_append, Option.mem_toList] at hn
    cases h with
    | @all star a t _ _ ht =>
      rcases hn with (hn | hn) | hn
      · exact .inl hn
      · exact .inr ⟨t, by simp, ht, Option.some.inj hn⟩
      · simp at hn
    | @names opening closing items ps _ hitems _ =>
      rcases hn with (hn | hn) | hn
      · exact .inl hn
      · simp at hn
      · obtain ⟨p, hp, hn⟩ := List.mem_flatMap.mp hn
        have hin : items ⊆ opening :: (items ++ [closing]) := fun u hu => by simp [hu]
        obtain ⟨hname, hasName⟩ := hitems.isNameIn p hp
        simp only [List.mem_cons, List.not_mem_nil, or_false] at hn
        rcases hn with rfl | rfl
        · exact .inr (hname.of_subset hin)
        · exact .inr (hasName.of_subset hin)
  have hfirst {t : Token} {more : List Token} (ht : t.kind = .ident) {n : String}
      (hn : n ∈ some t.text) : IsNameIn (t :: more) n :=
    ⟨t, List.mem_cons_self, ht, Option.some.inj hn⟩
  intro n hn
  rcases h with (@⟨t, ht⟩ | @⟨ts, _, _, hts⟩ | @⟨t, comma, ts, _, _, ht, _, _, hts⟩) |
    @⟨t, ts, _, _, ht, _, hts⟩
  · exact hfirst ht (by simpa [ImportClause.mentioned, eq_comm] using hn)
  · exact (hbindings hts none n hn).resolve_left (by simp)
  · exact (hbindings hts _ n hn).elim (hfirst ht) fun h => h.of_subset fun u hu => by simp [hu]
  · exact (hbindings hts _ n hn).elim (hfirst ht) fun h => h.of_subset fun u hu => by simp [hu]

/-- An import with bindings takes a string, and the names that it mentions are among its tokens. -/
theorem exists_of_readForm_importFrom {k : Token} {ts rest : List Token} {c : ImportClause}
    {specifier : String} {stop : Nat} (hkey : isKeyword k = true)
    (h : readForm k ts = .ok ⟨some (.importFrom c specifier), stop, rest⟩) :
    ∃ taken, ts = taken ++ rest ∧ (∀ n ∈ c.mentioned, IsNameIn taken n) ∧
      ∃ s ∈ taken, s.kind = .str := by
  cases (readForm_eq_ok_iff hkey).mp h with
  | @static f head after s _ hhead hs hend =>
    obtain ⟨attributes, ending, rfl, -⟩ := exists_of_readEnd hend
    have hform := Option.some.inj (StaticForm.value_of_readEnd hend)
    cases hhead with
    | @bindings _ word clause _ _ hclause =>
      obtain ⟨rfl, -⟩ := Form.importFrom.inj hform
      have hin : clause ⊆ clause ++ [word] ++ s :: (attributes ++ ending) :=
        fun u hu => by simp [hu]
      exact ⟨clause ++ [word] ++ s :: (attributes ++ ending), by simp,
        fun n hn => (isNameIn_of_clause hclause n hn).of_subset hin, s, by simp, hs⟩
    | bare | names | all | allAs => cases hform

end Statement

/-! ## Texts without quotes -/

namespace Unquoted

variable {a b : String}

theorem append (ha : Unquoted a) (hb : Unquoted b) : Unquoted (a ++ b) := by
  intro c hc
  rw [String.toList_append, List.mem_append] at hc
  exact hc.elim (ha c) (hb c)

theorem of_isToken (h : IsToken .ident a) : Unquoted a := by
  obtain ⟨c, cs, htext, hc, hlength⟩ := h.exists_cons_of_ident
  have hname : ∀ d ∈ cs, isIdentPart d = true := by
    rw [← List.take_length (l := cs), ← hlength]
    exact fun d hd => isIdentPart_of_mem_take hd
  intro d hd
  refine Bool.eq_false_iff.mpr fun hquote => ?_
  rw [htext, List.mem_cons] at hd
  rw [isQuote, Bool.or_eq_true, beq_iff_eq, beq_iff_eq] at hquote
  rcases hd with rfl | hd
  · rcases hquote with rfl | rfl <;> exact absurd hc (by decide)
  · rcases hquote with rfl | rfl <;> exact absurd (hname _ hd) (by decide)

theorem intercalate {separator : String} {texts : List String} (hseparator : Unquoted separator)
    (htexts : ∀ text ∈ texts, Unquoted text) : Unquoted (separator.intercalate texts) := by
  intro c hc
  rw [String.toList_intercalate] at hc
  rcases mem_intercalate hc with hc | ⟨_, hmem, hc⟩
  · exact hseparator c hc
  · obtain ⟨text, htext, rfl⟩ := List.mem_map.mp hmem
    exact htexts text htext c hc

theorem pairText (ha : Unquoted a) (hb : Unquoted b) : Unquoted (LinkedModule.pairText a b) := by
  rw [LinkedModule.pairText]
  split
  · exact ha
  · exact (ha.append (by decide)).append hb

end Unquoted

namespace LinkedModule

/-- What makes no reference is a builtin. -/
theorem source_of_reference_eq_none {site : Site} {specifier : String} {kind : ReferenceKind}
    {line : Nat} {target : Specifier} (htarget : site.classify specifier = .ok target)
    (hreference : site.reference? specifier kind line = none) :
    target.source = .empty ∨ ∃ p ∈ Specifier.polyfills, target.source = .polyfill p.2 := by
  rw [Site.reference?, htarget] at hreference
  cases target with
  | relative | bare => cases hreference
  | builtin name polyfill =>
    cases polyfill with
    | none => exact .inl rfl
    | some text =>
      obtain ⟨before, after, htable, -⟩ :=
        List.lookup_eq_some_iff.mp (polyfill?_of_classify htarget).symm
      exact .inr ⟨(name, text), by simp [htable], rfl⟩

/-- What stands in for a builtin has no quotes. -/
theorem unquoted_of_source {site : Site} {specifier : String} {kind : ReferenceKind} {line : Nat}
    {target : Specifier} (htarget : site.classify specifier = .ok target)
    (hreference : site.reference? specifier kind line = none) :
    Unquoted target.source.object ∧ Unquoted target.source.defaultValue := by
  rcases source_of_reference_eq_none htarget hreference with hempty | ⟨p, hp, hpolyfill⟩
  · rw [hempty]
    decide
  · have hall : ∀ p ∈ Specifier.polyfills, Unquoted p.2 := by decide
    rw [hpolyfill]
    exact ⟨hall p hp, hall p hp⟩

/-- Declarations of names without quotes have none. -/
theorem unquoted_bindingText {clause : ImportClause} {source : Source}
    (hnames : ∀ n ∈ clause.mentioned, Unquoted n) (hobject : Unquoted source.object)
    (hdefault : Unquoted source.defaultValue) : Unquoted (bindingText clause source) := by
  have hdeclare {pattern value : String} (hpattern : Unquoted pattern) (hvalue : Unquoted value) :
      Unquoted ("const " ++ pattern ++ " = " ++ value ++ ";") :=
    ((((by decide : Unquoted "const ").append hpattern).append (by decide)).append
      hvalue).append (by decide)
  obtain ⟨defaultName, namespaceName, names⟩ := clause
  simp only [ImportClause.mentioned, List.forall_mem_append] at hnames
  refine .intercalate (by decide) fun text htext => ?_
  simp only [List.mem_map, List.mem_append] at htext
  obtain (⟨n, hn, rfl⟩ | ⟨n, hn, rfl⟩) | ⟨ps, hps, rfl⟩ := htext
  · exact hdeclare (hnames.1.1 n hn) hdefault
  · exact hdeclare (hnames.1.2 n hn) hobject
  · refine hdeclare (((by decide : Unquoted "\x7b ").append (.intercalate (by decide) ?_)).append
      (by decide)) hobject
    obtain rfl : names = some ps := Option.mem_toList.mp (List.mem_filter.mp hps).1
    intro text htext
    obtain ⟨p, hp, rfl⟩ := List.mem_map.mp htext
    have hpair := fun n hn => hnames.2 n (List.mem_flatMap.mpr ⟨p, hp, hn⟩)
    exact (hpair p.name (by simp)).pairText (hpair p.asName (by simp))

/-- Declarations start with their keyword. -/
theorem head?_bindingText {clause : ImportClause} {source : Source} {d : Char}
    (h : (bindingText clause source).toList.head? = some d) : d = 'c' := by
  have hconst (text : String) : ("const " ++ text).toList.head? = some 'c' := by
    rw [String.toList_append]
    rfl
  have htexts {texts : List String} (hall : ∀ text ∈ texts, text.toList.head? = some 'c')
      (h : (" ".intercalate texts).toList.head? = some d) : d = 'c' := by
    rw [String.toList_intercalate] at h
    rcases texts with - | ⟨text, - | ⟨next, texts⟩⟩
    · cases h
    · rw [List.map_singleton, List.intercalate_singleton, hall text (by simp)] at h
      exact (Option.some.inj h).symm
    · rw [List.map_cons, List.map_cons, List.intercalate_cons_cons, List.append_assoc,
        List.head?_append, hall text (by simp)] at h
      exact (Option.some.inj h).symm
  refine htexts (fun text htext => ?_) h
  simp only [List.mem_map, List.mem_append] at htext
  obtain (⟨_, -, rfl⟩ | ⟨_, -, rfl⟩) | ⟨_, -, rfl⟩ := htext <;>
    simp only [String.append_assoc] <;> exact hconst _

/-! ## Replacements -/

/-- A text that has no quotes and does not start with the letter of a keyword. -/
structure IsForeign (text : String) : Prop where
  /-- It has no quotes. -/
  unquoted : Unquoted text
  /-- It does not start as a statement does. -/
  head_mem : text.toList.head?.all (· ∈ [';', '_', 'c']) = true

/-- What takes the place of a statement that refers to nothing and publishes no names is none,
unless the statement is an import, or a text that differs from all statements. -/
theorem replacement_of_effect {site : Site} {line : Nat} {s : Statement} {e : Effect} {x : Edit}
    (h : (effect site line s).result = .ok e) (hreference : e.reference = none)
    (hentries : e.entries = []) (hedit : e.edit = some x)
    (hnames : ∀ c specifier, s.form = .importFrom c specifier →
      ∀ n ∈ c.mentioned, Unquoted n) :
    IsForeign x.replacement ∧
      (x.replacement = "" → ∃ c specifier, s.form = .importFrom c specifier) := by
  have hsemicolon : IsForeign ";" ∧ (";" = "" → ∃ c specifier, s.form = .importFrom c specifier) :=
    ⟨⟨by decide, by decide⟩, by simp⟩
  have hassignment : IsForeign (defaultLocal ++ " =") ∧
      (defaultLocal ++ " =" = "" → ∃ c specifier, s.form = .importFrom c specifier) :=
    ⟨⟨by decide, by decide⟩, fun hnil => absurd hnil (by decide)⟩
  obtain ⟨start, stop, form⟩ := s
  cases result_effect_eq_ok_iff.mp h with
  | bareImport | exportNames | exportNamesFrom | exportAllAs | exportAll =>
    cases hedit
    exact hsemicolon
  | importFrom hbinds =>
    cases hedit
    obtain ⟨hobject, hdefault⟩ := unquoted_of_source hbinds.classify hreference
    refine ⟨⟨unquoted_bindingText (hnames _ _ rfl) hobject hdefault, ?_⟩, fun _ => ⟨_, _, rfl⟩⟩
    rw [Option.all_eq_true]
    intro d hd
    rw [head?_bindingText hd]
    decide
  -- what is in the registry is referred to
  | importCall htarget hkey =>
    rcases source_of_reference_eq_none htarget hreference with hempty | ⟨_, _, hpolyfill⟩
    · cases hkey.symm.trans hempty
    · cases hkey.symm.trans hpolyfill
  | builtinCall | computedImport => cases hedit
  | exportDefaultDeclaration | exportDeclaration => cases hentries
  | exportDefault => cases hedit; exact hassignment

/-- A statement that is not changed contributes nothing. -/
theorem eq_empty_of_edit_eq_none {site : Site} {line : Nat} {s : Statement} {e : Effect}
    (h : (effect site line s).result = .ok e) (hedit : e.edit = none) : e = {} := by
  obtain ⟨start, stop, form⟩ := s
  cases result_effect_eq_ok_iff.mp h with
  | builtinCall | computedImport => rfl
  | bareImport | importFrom | importCall | exportNames | exportNamesFrom | exportAllAs | exportAll
  | exportDefaultDeclaration | exportDefault | exportDeclaration => cases hedit

/-! ## What is replaced -/

section Spans

variable {src : String} {tokens : List Token} {s : Statement} {before cut after : List Char}

/-- A statement starts with the letter of a keyword, and an import with bindings has quotes. -/
theorem exists_cut_of_mem_outline (htokens : tokenize src = .ok tokens)
    (hs : s ∈ (outline false tokens).statements) (hsrc : src.toList = before ++ (cut ++ after))
    (hstart : s.start = utf8Width before) (hstop : s.stop = s.start + utf8Width cut) :
    (∃ d ∈ cut.head?, d ∈ ['i', 'e']) ∧
      ((∃ c specifier, s.form = .importFrom c specifier) → ∃ d ∈ cut, isQuote d = true) := by
  obtain ⟨used, t, following, rest, rfl, hkey, hstart', hread⟩ :=
    exists_readForm_of_mem_outline hs
  have horder := (inOrder_of_tokenize htokens).of_suffix (List.suffix_append used (t :: following))
  -- what the statement takes of the tokens is part of its text
  have hpart {taken : List Token} (htaken : following = taken ++ rest) {u : Token}
      (hu : u ∈ t :: taken) :
      ∃ x y, cut = x ++ (u.text.toList ++ y) ∧ utf8Width (before ++ x) = u.start := by
    have hmem : u ∈ t :: following := by
      rw [htaken, ← List.cons_append]
      exact List.mem_append_left _ hu
    have hstands := standsAt_of_tokenize htokens (List.mem_append_right used hmem)
    rw [hsrc] at hstands
    refine hstands.exists_between ?_ ?_
    · rw [← hstart, hstart']
      rcases List.mem_cons.mp hmem with rfl | hmem
      · exact Nat.le_refl _
      · exact (horder.start_le_stop t List.mem_cons_self).trans
          ((List.pairwise_cons.mp horder.pairwise).1 u hmem)
    · rw [utf8Width_append, ← hstart, ← hstop]
      exact (readForm_cutsAt hread).stop_le_of_mem horder (by rw [htaken, List.cons_append]) hu
  constructor
  · obtain ⟨taken, htaken, -⟩ := takes_of_readForm hkey hread
    obtain ⟨x, y, rfl, hx⟩ := hpart htaken List.mem_cons_self
    obtain rfl : x = [] := by
      rw [← hstart', hstart, utf8Width_append] at hx
      exact utf8Width_eq_zero_iff.mp (by omega)
    obtain ⟨d, word, hword, hd⟩ := exists_cons_of_isKeyword hkey
    exact ⟨d, by rw [hword]; rfl, List.mem_pair.mpr hd⟩
  · rintro ⟨c, specifier, hform⟩
    rw [hform] at hread
    obtain ⟨taken, htaken, -, u, hu, hstr⟩ := exists_of_readForm_importFrom hkey hread
    obtain ⟨x, y, rfl, -⟩ := hpart htaken (List.mem_cons_of_mem t hu)
    have hmem : u ∈ used ++ t :: following := by simp [htaken, hu]
    obtain ⟨_, _, quote, _, _, -, -, hl, htext⟩ := exists_lexemeAt_of_tokenize htokens hmem
    rw [hstr] at hl
    refine ⟨quote, by simp [htext], ?_⟩
    rcases hl.of_str.1 with rfl | rfl <;> rfl

/-- Names that an import mentions are identifiers of the source, which have no quotes. -/
theorem unquoted_of_mem_outline (htokens : tokenize src = .ok tokens)
    (hs : s ∈ (outline false tokens).statements) {c : ImportClause} {specifier : String}
    (hform : s.form = .importFrom c specifier) : ∀ n ∈ c.mentioned, Unquoted n := by
  obtain ⟨used, t, following, rest, rfl, hkey, -, hread⟩ := exists_readForm_of_mem_outline hs
  rw [hform] at hread
  obtain ⟨taken, rfl, hnames, -⟩ := exists_of_readForm_importFrom hkey hread
  intro n hn
  obtain ⟨u, hu, hkind, rfl⟩ := hnames n hn
  exact .of_isToken (isToken_of_tokenize htokens (by simp [hu]) hkind)

end Spans

/-- Statements that refer to nothing and publish no names do not change a text that is kept. -/
theorem filterMap_edit_eq_nil {src : String} {tokens : List Token} {ss : List Statement}
    {effects : List Effect} {site : Site} {line : Statement → Nat} {before text : List Char}
    (htokens : tokenize src = .ok tokens) (hss : ss ⊆ (outline false tokens).statements)
    (heffects : List.Forall₂ (fun s e => (effect site (line s) s).result = .ok e) ss effects)
    (hreferences : effects.filterMap Effect.reference = [])
    (hentries : effects.flatMap Effect.entries = []) (hsrc : src.toList = before ++ text)
    (hsplices : Edit.Splices (utf8Width before) text (effects.filterMap Effect.edit) text) :
    effects.filterMap Effect.edit = [] := by
  -- each change is that of a statement
  have hchange : ∀ x ∈ effects.filterMap Effect.edit, IsForeign x.replacement ∧
      ∃ s ∈ (outline false tokens).statements, x.start = s.start ∧ x.stop = s.stop ∧
        (x.replacement = "" → ∃ c specifier, s.form = .importFrom c specifier) := by
    intro x hx
    obtain ⟨e, he, hedit⟩ := List.mem_filterMap.mp hx
    obtain ⟨s, hs, heffect⟩ := exists_mem_of_forall₂ heffects.flip he
    obtain ⟨hforeign, hempty⟩ := replacement_of_effect heffect
      (List.filterMap_eq_nil_iff.mp hreferences e he) (List.flatMap_eq_nil_iff.mp hentries e he)
      hedit fun _ _ hform => unquoted_of_mem_outline htokens (hss hs) hform
    obtain ⟨hstart, hstop⟩ := span_of_edit heffect hedit
    exact ⟨hforeign, s, hss hs, hstart, hstop, hempty⟩
  generalize effects.filterMap Effect.edit = edits at hchange hsplices ⊢
  obtain ⟨out, hkept, hsplices⟩ : ∃ out, out = text ∧
      Edit.Splices (utf8Width before) text edits out := ⟨text, rfl, hsplices⟩
  cases hsplices with
  | done => rfl
  | @edit _ kept cut rest out x es hstart hstop hrest =>
    obtain ⟨hforeign, s, hs, hspan, hspan', hempty⟩ := hchange x List.mem_cons_self
    have hsrc' : src.toList = (before ++ kept) ++ (cut ++ rest) := by
      rw [hsrc, List.append_assoc]
    obtain ⟨⟨d, hd, hletter⟩, hquote⟩ := exists_cut_of_mem_outline htokens hs hsrc'
      (by rw [← hspan, hstart, utf8Width_append]) (by rw [← hspan', ← hspan, hstop])
    have hsame : x.replacement.toList ++ out = cut ++ rest := List.append_cancel_left hkept
    by_cases hnil : x.replacement.toList = []
    -- the quotes of an import that is taken out are missing
    · obtain ⟨q, hq, hisQuote⟩ := hquote (hempty (String.toList_eq_nil_iff.mp hnil))
      have hle := hrest.countP_le fun y hy =>
        (hchange y (List.mem_cons_of_mem x hy)).1.unquoted
      have hpos : 0 < cut.countP isQuote := List.countP_pos_iff.mpr ⟨q, hq, hisQuote⟩
      rw [hnil, List.nil_append] at hsame
      rw [hsame, List.countP_append] at hle
      omega
    -- any other change starts with a letter that is none of a keyword
    · have hhead := congrArg List.head? hsame
      rw [List.head?_append_of_ne_nil _ hnil, List.head?_append, Option.mem_def.mp hd] at hhead
      have hmem := hforeign.head_mem
      rw [hhead] at hmem
      simp only [List.mem_cons, List.not_mem_nil, or_false] at hletter
      rcases hletter with rfl | rfl <;> cases hmem

end LinkedModule

end EdgeBundle
