import EdgeBundle.Proofs.Module.Separator
import EdgeBundle.Proofs.Module.StaticForm
import EdgeBundle.Proofs.Text.Search

/-!
# Builtins without stand-in

If builtins without stand-in are errors, no module can be linked that takes bindings from one,
whatever else stands in the module. An import without bindings is taken out, whatever it names. A
statement is found by reading on from the start: a form before it either ends before it starts, or
swallows its keyword as a name and then takes the specifier as its own.

## Main definitions

* `Statement.EndsInAttributes`: tokens that end inside the attributes of an import.
* `Statement.Meets`: what becomes of a keyword between other tokens.

## Main statements

* `Statement.outline_meets`: reading on from the start meets every keyword.
* `Statement.Takes.exists_form`: a form that takes a statement's keyword takes its specifier.
* `Statement.exists_statement_of_heads`: reading on from the start finds the statement.
* `LinkedModule.ofSource_missingBuiltin`: when a module that names a missing builtin is an error.
-/

namespace EdgeBundle

namespace Statement

/-- The tokens end inside the attributes of an import with bindings, after the opening brace. -/
inductive EndsInAttributes : List Token → Prop
  | mk {f : StaticForm} {used head inner : List Token} {s word opening : Token}
      (hhead : f.Heads head) (htakes : f.takesAttributes = true) (hs : s.kind = .str)
      (hword : word.isWord "with" = true ∨ word.isWord "assert" = true)
      (hopening : opening.isPunct "\x7b" = true)
      (hinner : ∀ t ∈ inner, t.isPunct "\x7d" = false) :
      EndsInAttributes (used ++ (head ++ s :: word :: opening :: inner))

theorem EndsInAttributes.append_left {ts : List Token} (h : EndsInAttributes ts)
    (before : List Token) : EndsInAttributes (before ++ ts) := by
  obtain ⟨hhead, htakes, hs, hword, hopening, hinner⟩ := h
  rw [← List.append_assoc]
  exact .mk hhead htakes hs hword hopening hinner

/-- Attributes follow a specifier. -/
theorem EndsInAttributes.exists_str {ts : List Token} (h : EndsInAttributes ts) :
    ∃ t ∈ ts, t.kind = .str := by
  obtain ⟨-, -, hs, -, -, -⟩ := h
  exact ⟨_, by simp, hs⟩

/-- The tokens end with a member access, so that the name of a property follows. -/
def endsInAccess (ts : List Token) : Bool :=
  ts.getLast?.any fun t => t.isPunct "." || t.isPunct "?."

theorem endsInAccess_of_append {before ts : List Token} (h : endsInAccess (before ++ ts) = false) :
    endsInAccess ts = false := by
  cases ts with
  | nil => rfl
  | cons t ts => rwa [endsInAccess, List.getLast?_append_of_ne_nil _ (List.cons_ne_nil t ts)] at h

/-- The first string parts tokens in one way. -/
theorem eq_of_first_str {before before' rest rest' : List Token} {s s' : Token}
    (h : before ++ s :: rest = before' ++ s' :: rest') (hbefore : ∀ t ∈ before, t.kind ≠ .str)
    (hbefore' : ∀ t ∈ before', t.kind ≠ .str) (hs : s.kind = .str) (hs' : s'.kind = .str) :
    before = before' ∧ s = s' := by
  induction before generalizing before' with
  | nil =>
    cases before' with
    | nil => exact ⟨rfl, (List.cons.inj h).1⟩
    | cons t before' =>
      cases h
      exact absurd hs (hbefore' s List.mem_cons_self)
  | cons t before ih =>
    cases before' with
    | nil =>
      cases h
      exact absurd hs' (hbefore s' List.mem_cons_self)
    | cons t' before' =>
      obtain ⟨rfl, hrest⟩ := List.cons.inj h
      obtain ⟨rfl, rfl⟩ := ih hrest (fun u hu => hbefore u (List.mem_cons_of_mem t hu))
        (fun u hu => hbefore' u (List.mem_cons_of_mem t hu))
      exact ⟨rfl, rfl⟩

/-- A token stands in one of two parts. -/
theorem exists_of_append_eq {first second before after : List Token} {k : Token}
    (h : first ++ second = before ++ k :: after) :
    (∃ more, first = before ++ k :: more ∧ after = more ++ second) ∨
      ∃ more, before = first ++ more ∧ second = more ++ k :: after := by
  rcases List.append_eq_append_iff.mp h with ⟨more, hbefore, hsecond⟩ | ⟨more, hfirst, hk⟩
  · exact .inr ⟨more, hbefore, hsecond⟩
  · cases more with
    | nil => exact .inr ⟨[], by simpa using hfirst.symm, hk.symm⟩
    | cons t more =>
      obtain ⟨rfl, hafter⟩ := List.cons.inj hk
      exact .inl ⟨more, hfirst, hafter⟩

/-! ## Keywords on the way -/

/-- What becomes of a keyword between other tokens: a form is read from it, or a form that has been
read from an earlier one takes it. What is read as a form is among the statements. -/
inductive Meets (found : List Statement) (k : Token) (before after : List Token) : Prop
  | reads {r : Found} (hread : readForm k after = .ok r)
      (hfound : ∀ form, r.value = some form → ⟨k.start, r.stop, form⟩ ∈ found)
  | taken {earlier inner taken : List Token} {t : Token} {r : Found}
      (hbefore : before = earlier ++ t :: inner) (hafter : after = taken ++ r.rest)
      (hread : readForm t (inner ++ k :: after) = .ok r)
      (htakes : Takes t (inner ++ k :: taken) r.value)
      (hfound : ∀ form, r.value = some form → ⟨t.start, r.stop, form⟩ ∈ found)

theorem Meets.append_left {found found' : List Statement} {k : Token} {before after : List Token}
    (h : Meets found k before after) (skipped : List Token) (hmore : found ⊆ found') :
    Meets found' k (skipped ++ before) after := by
  cases h with
  | reads hread hfound => exact .reads hread fun form hform => hmore (hfound form hform)
  | @taken earlier inner _ t _ hbefore hafter hread htakes hfound =>
    have hsplit : skipped ++ before = skipped ++ earlier ++ t :: inner := by
      rw [hbefore, List.append_assoc]
    exact .taken hsplit hafter hread htakes fun form hform => hmore (hfound form hform)

/-- Where a form is read before a keyword, it takes the keyword or leaves it. -/
theorem exists_of_readForm_append {t k : Token} {before after : List Token} {r : Found}
    (hkey : isKeyword t = true) (hread : readForm t (before ++ k :: after) = .ok r) :
    (∃ taken, after = taken ++ r.rest ∧ Takes t (before ++ k :: taken) r.value) ∨
      ∃ used more, before = used ++ more ∧ r.rest = more ++ k :: after := by
  obtain ⟨taken, hts, htakes⟩ := takes_of_readForm hkey hread
  rcases exists_of_append_eq hts.symm with ⟨more, rfl, hafter⟩ | ⟨more, hbefore, hrest⟩
  · exact .inl ⟨more, hafter, htakes⟩
  · exact .inr ⟨taken, more, hbefore, hrest⟩

/-- Reading on from the start meets every keyword that starts a form and names no property. -/
theorem outline_meets {k : Token} {after : List Token} (hk : startsForm false k after = true)
    {afterDot : Bool} {ts before : List Token} (hts : ts = before ++ k :: after)
    (hstart : before = [] → afterDot = false) (hdot : endsInAccess before = false)
    (hfault : (outline afterDot ts).fault = none) :
    Meets (outline afterDot ts).statements k before after := by
  -- induction over the forms and tokens on the way, each of which leaves the keyword behind it
  revert before
  fun_induction outline afterDot ts with
  | case1 => simp
  | case2 => cases hfault
  | case3 _ t ts hstarts r hr hnone ih =>
    intro before hts hstart hdot
    cases before with
    | nil =>
      obtain ⟨rfl, rfl⟩ := List.cons.inj hts
      exact .reads hr (by simp [hnone])
    | cons u before =>
      obtain ⟨rfl, rfl⟩ := List.cons.inj hts
      simp only [Bool.and_eq_true] at hstarts
      rcases exists_of_readForm_append hstarts.1.1 hr with
        ⟨taken, hafter, htakes⟩ | ⟨used, more, rfl, hrest⟩
      · exact .taken (List.nil_append _).symm hafter hr htakes (by simp [hnone])
      · exact (ih hfault hrest (fun _ => rfl) (@endsInAccess_of_append (t :: used) more hdot)
          ).append_left (t :: used) (List.Subset.refl _)
  | case4 _ t ts hstarts r hr form hform later ih =>
    intro before hts hstart hdot
    have hfound : ∀ form', r.value = some form' → ⟨t.start, r.stop, form'⟩ ∈
        (⟨t.start, r.stop, form⟩ :: later.statements : List Statement) := by
      intro form' hform'
      obtain rfl := Option.some.inj (hform.symm.trans hform')
      exact List.mem_cons_self
    cases before with
    | nil =>
      obtain ⟨rfl, rfl⟩ := List.cons.inj hts
      exact .reads hr hfound
    | cons u before =>
      obtain ⟨rfl, rfl⟩ := List.cons.inj hts
      simp only [Bool.and_eq_true] at hstarts
      rcases exists_of_readForm_append hstarts.1.1 hr with
        ⟨taken, hafter, htakes⟩ | ⟨used, more, rfl, hrest⟩
      · exact .taken (List.nil_append _).symm hafter hr htakes hfound
      · exact (ih hfault hrest (fun _ => rfl) (@endsInAccess_of_append (t :: used) more hdot)
          ).append_left (t :: used) (List.subset_cons_self _ _)
  | case5 _ t ts hstarts ih =>
    intro before hts hstart hdot
    cases before with
    | nil =>
      -- the keyword itself starts a form
      obtain ⟨rfl, rfl⟩ := List.cons.inj hts
      rw [hstart rfl] at hstarts
      exact absurd hk hstarts
    | cons u before =>
      obtain ⟨rfl, rfl⟩ := List.cons.inj hts
      refine (ih hfault rfl ?_ (@endsInAccess_of_append [t] before hdot)).append_left [t]
        (List.Subset.refl _)
      rintro rfl
      simpa [endsInAccess] using hdot

/-! ## Statements that take a keyword with them -/

variable {f : StaticForm} {k s t : Token} {head rest before : List Token}

/-- No list of exports takes the keyword of a statement as a name: the closing brace of the list
would be the first brace after it. -/
theorem Names.not_heads {opening closing : Token} {items ending later after : List Token}
    {ps : List NamePair} (hhead : f.Heads (k :: head)) (hs : s.kind = .str)
    (hopening : opening.isPunct "\x7b" = true) (hitems : Names items ps)
    (hclosing : closing.isPunct "\x7d" = true) (hending : ∀ t ∈ ending, t.isPunct ";" = true)
    (htaken : opening :: (items ++ closing :: ending) = before ++ k :: after) :
    head ++ s :: rest ≠ after ++ later := by
  obtain ⟨_, _, hcons, hkey⟩ := hhead.exists_cons
  obtain ⟨rfl, rfl⟩ := List.cons.inj hcons
  have hident := (isKeyword_iff.mp hkey).1
  have hnot {p : String} {u : Token} (hu : u.isPunct p = true) : k ≠ u := by
    rintro rfl
    rw [(Token.isPunct_iff.mp hu).1] at hident
    cases hident
  -- the keyword is one of the names
  obtain ⟨before', more, hitems', rfl⟩ : ∃ before' more, items = before' ++ k :: more ∧
      after = more ++ closing :: ending := by
    cases before with
    | nil => exact absurd (List.cons.inj htaken).1.symm (hnot hopening)
    | cons u before' =>
      rcases exists_of_append_eq (List.cons.inj htaken).2 with found | ⟨more, -, hmore⟩
      · exact ⟨before', found⟩
      · cases more with
        | nil => exact absurd (List.cons.inj hmore).1.symm (hnot hclosing)
        | cons u more =>
          have hk : k ∈ ending := by simp [(List.cons.inj hmore).2]
          exact absurd rfl (hnot (hending k hk))
  intro h
  rw [List.append_assoc, List.cons_append] at h
  have hnames : ∀ u ∈ k :: more, u.kind ≠ .str ∧ u.isPunct "\x7b" = false := by
    intro u hu
    have hmem : u ∈ items := by
      rw [hitems']
      exact List.mem_append_right _ hu
    refine ⟨hitems.kind_ne_str u hmem, ?_⟩
    rcases hitems.ident_or_comma u hmem with hkind | hcomma
    · exact Token.isPunct_eq_false (by simp [hkind]) _
    · exact Token.isPunct_eq_false_of_ne hcomma (by decide)
  rcases exists_of_append_eq h with ⟨inside, hhead', -⟩ | ⟨inside, hmore, hs'⟩
  -- the closing brace stands before the specifier
  · rw [hhead'] at hhead
    have hnot : ¬ OpensFirst (k :: more ++ closing :: inside) :=
      not_opensFirst_append (fun u hu => (hnames u hu).2) hclosing
    exact hnot hhead.opensFirst
  -- the specifier is one of the names
  · cases inside with
    | nil =>
      obtain ⟨rfl, -⟩ := List.cons.inj hs'
      exact kind_ne_str_of_isPunct hclosing hs
    | cons u inside =>
      obtain ⟨rfl, -⟩ := List.cons.inj hs'
      exact (hnames s (by simp [hmore])).1 hs

/-- A keyword in what follows a specifier stands inside the attributes. -/
theorem Attributes.exists_inner {attributes ending after : List Token}
    (h : Attributes attributes) (hending : ∀ t ∈ ending, t.isPunct ";" = true)
    (hkey : isKeyword k = true) (htaken : attributes ++ ending = before ++ k :: after) :
    attributes ≠ [] ∧ ∃ word opening inner, before = word :: opening :: inner ∧
      (word.isWord "with" = true ∨ word.isWord "assert" = true) ∧
      opening.isPunct "\x7b" = true ∧ ∀ t ∈ inner, t.isPunct "\x7d" = false := by
  obtain ⟨hident, htext⟩ := isKeyword_iff.mp hkey
  have hnot {p : String} {u : Token} (hu : u.isPunct p = true) : k ≠ u := by
    rintro rfl
    rw [(Token.isPunct_iff.mp hu).1] at hident
    cases hident
  -- the keyword is neither the word of the clause, nor a brace of it, nor a semicolon after it
  rcases exists_of_append_eq htaken with ⟨after', hattributes, -⟩ | ⟨more, -, hmore⟩
  · cases h with
    | none => simp at hattributes
    | @clause word opening closing inner hword hopening hinner hclosing =>
      have hne : k ≠ word := by
        rintro rfl
        rcases hword with hword | hword <;>
          simp [(Token.isWord_iff.mp hword).2, keywords] at htext
      rcases before with - | ⟨u, - | ⟨v, before⟩⟩
      · exact absurd (List.cons.inj hattributes).1.symm hne
      · exact absurd (List.cons.inj (List.cons.inj hattributes).2).1.symm (hnot hopening)
      · obtain ⟨rfl, hrest⟩ := List.cons.inj hattributes
        obtain ⟨rfl, hinside⟩ := List.cons.inj hrest
        refine ⟨List.cons_ne_nil _ _, word, opening, before, rfl, hword, hopening,
          fun u hu => hinner u ?_⟩
        rcases exists_of_append_eq hinside with ⟨_, hbefore, -⟩ | ⟨more, -, hmore⟩
        · simp [hbefore, hu]
        · cases more with
          | nil => exact absurd (List.cons.inj hmore).1.symm (hnot hclosing)
          | cons _ _ => simp at hmore
  · have hk : k ∈ ending := by simp [hmore]
    exact absurd rfl (hnot (hending k hk))

/-- A form that takes the keyword of a statement with it takes the specifier as its own. -/
theorem Takes.exists_form {after later : List Token} {form : Option Form}
    (h : Takes t (before ++ k :: after) form) (hhead : f.Heads (k :: head)) (hs : s.kind = .str)
    (hattributes : ¬ EndsInAttributes (t :: before)) (hts : head ++ s :: rest = after ++ later) :
    ∃ g : StaticForm, g ≠ .bare ∧ form = some (g.form (specifierText s)) := by
  obtain ⟨_, _, hcons, hkey⟩ := hhead.exists_cons
  obtain ⟨rfl, rfl⟩ := List.cons.inj hcons
  have hident := (isKeyword_iff.mp hkey).1
  generalize htaken : before ++ k :: after = taken at h
  cases h with
  | other hother =>
    -- the form takes no keyword
    have hk := hother k (by simp [← htaken])
    rw [hkey] at hk
    cases hk
  | names hopening hitems hclosing hending =>
    exact absurd hts (hitems.not_heads hhead hs hopening hclosing hending htaken.symm)
  | @static g head' attributes ending s' hhead' hs' hattributes' htakes hending =>
    rcases exists_of_append_eq htaken.symm with ⟨more, hmore, rfl⟩ | ⟨more, rfl, hmore⟩
    -- as a name, so that both have the same specifier
    · have hstrings : ∀ u ∈ more, u.kind ≠ .str := fun u hu =>
        hhead'.kind_ne_str u (by simp [hmore, hu])
      rw [List.append_assoc, List.cons_append] at hts
      obtain ⟨-, rfl⟩ := eq_of_first_str hts
        (fun u hu => hhead.kind_ne_str u (List.mem_cons_of_mem k hu)) hstrings hs hs'
      refine ⟨g, ?_, rfl⟩
      rintro rfl
      cases hhead'
      simp at hmore
    -- or inside its attributes
    · cases more with
      | nil =>
        obtain ⟨rfl, -⟩ := List.cons.inj hmore
        rw [hident] at hs'
        cases hs'
      | cons u more =>
        obtain ⟨rfl, hinside⟩ := List.cons.inj hmore
        obtain ⟨hsome, word, opening, inner, rfl, hword, hopening, hinner⟩ :=
          hattributes'.exists_inner hending hkey hinside
        have hends : EndsInAttributes
            ([] ++ (t :: head' ++ s' :: word :: opening :: inner)) :=
          .mk hhead' (htakes hsome) hs' hword hopening hinner
        exact absurd hends hattributes

/-- Reading on from the start finds a statement that takes bindings from the specifier. -/
theorem exists_statement_of_heads (hhead : f.Heads (k :: head)) (hbare : f ≠ .bare)
    (hs : s.kind = .str) {afterDot : Bool} {ts : List Token}
    (hts : ts = before ++ k :: (head ++ s :: rest)) (hstart : before = [] → afterDot = false)
    (hdot : endsInAccess before = false) (hattributes : ¬ EndsInAttributes before)
    (hfault : (outline afterDot ts).fault = none) :
    ∃ found ∈ (outline afterDot ts).statements, ∃ g : StaticForm,
      g ≠ .bare ∧ found.form = g.form (specifierText s) := by
  cases outline_meets (hhead.startsForm hs rest) hts hstart hdot hfault with
  | reads hread hfound =>
    exact ⟨_, hfound _ (hhead.value_of_readForm hs hread), f, hbare, rfl⟩
  | @taken earlier inner taken t r hbefore hafter hread htakes hfound =>
    have hinner : ¬ EndsInAttributes (t :: inner) := fun h =>
      hattributes (hbefore ▸ h.append_left earlier)
    obtain ⟨g, hg, hform⟩ := htakes.exists_form hhead hs hinner hafter
    exact ⟨_, hfound _ hform, g, hg, rfl⟩

end Statement

namespace LinkedModule

open Logged

variable {config : Config} {path : RelPath} {src : String}

/-- A specifier that starts like a builtin and is not relative stands for a builtin. -/
theorem classify_builtin {name : String} (hnonempty : config.builtinPrefix ≠ "")
    (hrelative : Specifier.isRelative (config.builtinPrefix ++ name).toList = false) :
    (Site.ofConfig config path).classify (config.builtinPrefix ++ name) =
      .ok (.builtin name (Specifier.polyfill? name)) := by
  have hdrop : dropHead? config.builtinPrefix.toList (config.builtinPrefix ++ name).toList =
      some name.toList := by
    rw [dropHead?_eq_some_iff, String.toList_append]
  have hempty : config.builtinPrefix.isEmpty = false := by
    simpa [String.isEmpty_iff] using hnonempty
  simp only [Site.classify, Site.ofConfig, Specifier.classify, hrelative, hdrop, hempty,
    Bool.false_eq_true, if_false, String.ofList_toList]
  rfl

/-- Bindings from a builtin without stand-in are an error if the site is strict. -/
theorem result_effect_of_missing {site : Site} {line : Nat} {s : Statement} {f : StaticForm}
    {specifier name : String} (hbare : f ≠ .bare) (hform : s.form = f.form specifier)
    (hclass : site.classify specifier = .ok (.builtin name none))
    (hstrict : site.strictBuiltins = true) :
    (effect site line s).result = .error (.unknownBuiltin site.path.text name) := by
  have hsource (kind : ReferenceKind) : (site.source specifier kind line).result =
      .error (.unknownBuiltin site.path.text name) := by
    rw [Site.source, result_bind_of_ok (by rw [result_ofExcept, hclass])]
    simp only [hstrict, if_true]
    exact result_bind_of_error (result_throw _) _
  obtain ⟨start, stop, form⟩ := s
  cases hform
  cases f with
  | bare => exact absurd rfl hbare
  | bindings clause => exact result_bind_of_error (hsource .atLoad) _
  | names ps => exact result_bind_of_error (hsource .atLoad) _
  | all asName => cases asName <;> exact result_bind_of_error (hsource .atLoad) _

/-- A statement without bindings has its effect, whatever the builtin. -/
theorem result_effect_of_bareImport {site : Site} {line : Nat} {s : Statement}
    {specifier name : String} {standIn : Option String} (hform : s.form = .bareImport specifier)
    (hclass : site.classify specifier = .ok (.builtin name standIn)) :
    (effect site line s).result = .ok { edit := some ⟨s.start, s.stop, ";"⟩ } := by
  rw [effect, hform]
  exact result_bind_eq_ok (by rw [result_ofExcept, hclass]) rfl

/-- With strict builtins, a module with a statement that names a builtin without stand-in is an
error if the statement has bindings or exports them. If it has none, it is no error by itself: the
module is one only for a form that cannot be read or for another statement. The statement is not the
name of a property, and not part of the attributes of another one. -/
theorem ofSource_missingBuiltin {f : StaticForm} {before head rest : List Token} {s : Token}
    {name : String} (hstrict : config.strictBuiltins = true)
    (htokens : tokenize src = .ok (before ++ (head ++ s :: rest)))
    (hhead : f.Heads head) (hs : s.kind = .str)
    (hspecifier : Statement.specifierText s = config.builtinPrefix ++ name)
    (hnonempty : config.builtinPrefix ≠ "")
    (hrelative : Specifier.isRelative (config.builtinPrefix ++ name).toList = false)
    (hmissing : Specifier.polyfill? name = none)
    (hdot : Statement.endsInAccess before = false)
    (hattributes : ¬ Statement.EndsInAttributes before) :
    (∃ e, (ofSource config path src).result = .error e) ↔
      f ≠ .bare ∨ (Statement.outline false (before ++ (head ++ s :: rest))).fault ≠ none ∨
        ∃ other ∈ (Statement.outline false (before ++ (head ++ s :: rest))).statements,
          other.form ≠ .bareImport (config.builtinPrefix ++ name) ∧
          ∃ e, (effect (.ofConfig config path) (lineAt src.toList other.start) other).result =
            .error e := by
  have hclass : (Site.ofConfig config path).classify (config.builtinPrefix ++ name) =
      .ok (.builtin name none) := by
    rw [classify_builtin hnonempty hrelative, hmissing]
  rw [exists_error_ofSource_iff htokens]
  constructor
  · rintro (hfault | ⟨other, hother, e, herror⟩)
    · exact .inr (.inl hfault)
    · refine .inr (.inr ⟨other, hother, fun hform => ?_, e, herror⟩)
      rw [result_effect_of_bareImport hform hclass] at herror
      cases herror
  · rintro (hbare | hfault | ⟨other, hother, -, e, herror⟩)
    · refine or_iff_not_imp_left.mpr fun hfault => ?_
      obtain ⟨k, head, rfl, -⟩ := hhead.exists_cons
      obtain ⟨found, hmem, g, hg, hform⟩ := Statement.exists_statement_of_heads hhead hbare hs rfl
        (fun _ => rfl) hdot hattributes (not_not.mp hfault)
      rw [hspecifier] at hform
      exact ⟨found, hmem, _, result_effect_of_missing hg hform hclass hstrict⟩
    · exact .inl hfault
    · exact .inr ⟨other, hother, e, herror⟩

/-- An import without bindings is no error, an export of everything, after a property with the name
of a keyword, is one. -/
theorem ofSource_missingBuiltin_all :
    (∃ head s rest, tokenize "import 'node:crypto';" = .ok ([] ++ (head ++ s :: rest)) ∧
      StaticForm.bare.Heads head ∧ Statement.specifierText s = "node:" ++ "crypto" ∧
      ¬ ∃ e, (ofSource { strictBuiltins := true } ⟨"a.mjs", by decide⟩
        "import 'node:crypto';").result = .error e) ∧
    ∃ src before head s rest, src = "a.import(b)\nexport * as c from 'node:crypto'\nd()" ∧
      tokenize src = .ok (before ++ (head ++ s :: rest)) ∧
      (StaticForm.all (some "c")).Heads head ∧
      Statement.specifierText s = "node:" ++ "crypto" ∧
      Statement.endsInAccess before = false ∧ ¬ Statement.EndsInAttributes before ∧
      ∃ e, (ofSource { strictBuiltins := true } ⟨"a.mjs", by decide⟩ src).result = .error e := by
  have hrelative : Specifier.isRelative ("node:" ++ "crypto").toList = false := by decide +kernel
  have hmissing : Specifier.polyfill? "crypto" = none := by decide +kernel
  constructor
  · have htokens : tokenize "import 'node:crypto';" = .ok ([] ++ ([⟨.ident, 0, "import"⟩] ++
        ⟨.str, 7, "'node:crypto'"⟩ :: [⟨.punct, 20, ";"⟩])) := by decide +kernel
    have hspecifier : Statement.specifierText ⟨.str, 7, "'node:crypto'"⟩ = "node:" ++ "crypto" := by
      decide +kernel
    -- the statement is the only one, and it can be read
    have houtline : Statement.outline false ([] ++ ([⟨.ident, 0, "import"⟩] ++
        ⟨.str, 7, "'node:crypto'"⟩ :: [⟨.punct, 20, ";"⟩])) =
          ⟨[⟨0, 21, .bareImport "node:crypto"⟩], none⟩ := by decide +kernel
    refine ⟨_, _, _, htokens, .bare rfl, hspecifier, fun herror => ?_⟩
    have hcause := (@ofSource_missingBuiltin { strictBuiltins := true } ⟨"a.mjs", by decide⟩
      "import 'node:crypto';" .bare [] _ _ _ "crypto" rfl htokens (.bare rfl) rfl hspecifier
      (by decide) hrelative hmissing (by decide) fun h => by simpa using h.exists_str).mp herror
    rw [houtline] at hcause
    rcases hcause with hbare | hfault | ⟨other, hother, hform, -⟩
    · exact absurd rfl hbare
    · exact absurd rfl hfault
    · obtain rfl := List.mem_singleton.mp hother
      exact absurd (by decide +kernel) hform
  · have hhead : (StaticForm.all (some "c")).Heads [⟨.ident, 12, "export"⟩, ⟨.punct, 19, "*"⟩,
        ⟨.ident, 21, "as"⟩, ⟨.ident, 24, "c"⟩, ⟨.ident, 26, "from"⟩] :=
      .allAs (t := ⟨.ident, 24, "c"⟩) rfl rfl rfl rfl rfl
    -- without a string there are no attributes
    have hattributes : ¬ Statement.EndsInAttributes [⟨.ident, 0, "a"⟩, ⟨.punct, 1, "."⟩,
        ⟨.ident, 2, "import"⟩, ⟨.punct, 8, "("⟩, ⟨.ident, 9, "b"⟩, ⟨.punct, 10, ")"⟩] :=
      fun h => absurd h.exists_str (by decide)
    have htokens : tokenize "a.import(b)\nexport * as c from 'node:crypto'\nd()" = .ok
        ([⟨.ident, 0, "a"⟩, ⟨.punct, 1, "."⟩, ⟨.ident, 2, "import"⟩, ⟨.punct, 8, "("⟩,
          ⟨.ident, 9, "b"⟩, ⟨.punct, 10, ")"⟩] ++ ([⟨.ident, 12, "export"⟩, ⟨.punct, 19, "*"⟩,
          ⟨.ident, 21, "as"⟩, ⟨.ident, 24, "c"⟩, ⟨.ident, 26, "from"⟩] ++
          ⟨.str, 31, "'node:crypto'"⟩ :: [⟨.ident, 45, "d"⟩, ⟨.punct, 46, "("⟩,
            ⟨.punct, 47, ")"⟩])) := by decide +kernel
    have hspecifier :
        Statement.specifierText ⟨.str, 31, "'node:crypto'"⟩ = "node:" ++ "crypto" := by
      decide +kernel
    exact ⟨_, _, _, _, _, rfl, htokens, hhead, hspecifier, by decide, hattributes,
      (ofSource_missingBuiltin rfl htokens hhead rfl hspecifier (by decide) hrelative hmissing
        (by decide) hattributes).mpr (.inl (by decide))⟩

/-- Strict builtins catch an import in empty braces, but not one without bindings. They do not
catch a specifier that is relative although it starts like a builtin, and a statement inside
attributes, either. -/
theorem ofSource_missingBuiltin_gaps :
    Specifier.polyfill? "crypto" = none ∧ Specifier.polyfill? "/crypto" = none ∧
      (ofSource { strictBuiltins := true } ⟨"a.mjs", by decide⟩
        "import \x7b\x7d from 'node:crypto';").result = .error (.unknownBuiltin "a.mjs" "crypto") ∧
      (∃ head s rest, tokenize "import 'node:crypto';" = .ok (head ++ s :: rest) ∧
        StaticForm.bare.Heads head ∧ Statement.specifierText s = "node:" ++ "crypto" ∧
        (ofSource { strictBuiltins := true } ⟨"a.mjs", by decide⟩
          "import 'node:crypto';").result.toOption.map LinkedModule.code =
            some (opening ⟨"a.mjs", by decide⟩ ++ ";\n\x7d)();\n")) ∧
      (∃ head s rest, tokenize "import c from './crypto';" = .ok (head ++ s :: rest) ∧
        (StaticForm.bindings ⟨some "c", none, none⟩).Heads head ∧
        Statement.specifierText s = "." ++ "/crypto" ∧
        (ofSource { builtinPrefix := ".", strictBuiltins := true } ⟨"a.mjs", by decide⟩
          "import c from './crypto';").result.isOk = true) ∧
      ∃ before head s rest,
        tokenize "import a from './a.mjs' with \x7b import c from 'node:crypto' \x7d;" =
          .ok (before ++ (head ++ s :: rest)) ∧
        (StaticForm.bindings ⟨some "c", none, none⟩).Heads head ∧
        Statement.specifierText s = "node:" ++ "crypto" ∧
        Statement.endsInAccess before = false ∧
        (ofSource { strictBuiltins := true } ⟨"b.mjs", by decide⟩
          "import a from './a.mjs' with \x7b import c from 'node:crypto' \x7d;").result.isOk =
            true := by
  have hclause (start : Nat) : Statement.Clause [⟨.ident, start, "c"⟩] ⟨some "c", none, none⟩ :=
    .default rfl (by simp)
  refine ⟨by decide +kernel, by decide +kernel, by decide +kernel, ?_, ?_, ?_⟩
  · exact ⟨[⟨.ident, 0, "import"⟩], ⟨.str, 7, "'node:crypto'"⟩, [⟨.punct, 20, ";"⟩],
      by decide +kernel, .bare rfl, by decide +kernel, by decide +kernel⟩
  · exact ⟨[⟨.ident, 0, "import"⟩, ⟨.ident, 7, "c"⟩, ⟨.ident, 9, "from"⟩],
      ⟨.str, 14, "'./crypto'"⟩, [⟨.punct, 24, ";"⟩], by decide +kernel,
      .bindings rfl (.inl (hclause 7)) rfl, by decide +kernel, by decide +kernel⟩
  · exact ⟨[⟨.ident, 0, "import"⟩, ⟨.ident, 7, "a"⟩, ⟨.ident, 9, "from"⟩,
      ⟨.str, 14, "'./a.mjs'"⟩, ⟨.ident, 24, "with"⟩, ⟨.punct, 29, "\x7b"⟩],
      [⟨.ident, 31, "import"⟩, ⟨.ident, 38, "c"⟩, ⟨.ident, 40, "from"⟩],
      ⟨.str, 45, "'node:crypto'"⟩, [⟨.punct, 59, "\x7d"⟩, ⟨.punct, 60, ";"⟩], by decide +kernel,
      .bindings rfl (.inl (hclause 38)) rfl, by decide +kernel, by decide, by decide +kernel⟩

end LinkedModule

end EdgeBundle
