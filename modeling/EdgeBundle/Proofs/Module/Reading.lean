import EdgeBundle.Proofs.Module.References
import EdgeBundle.Proofs.Token.Frame

/-!
# Tokens that are read alike

Reading statements looks at the classes of tokens and at their texts, the texts of template literals
apart, but never at their places. So tokens of the same classes and texts make the same statements,
wherever they stand, and a module publishes and refers to the same whatever else is in its source,
if its keywords are on the same lines.

## Main definitions

* `Agree`: computations that both fail or both have values, which are related.
* `LinkedModule.SameLinks`: modules that export and refer to the same.
* `LinkedModule.SameStatements`: tokens with the same statements on the same lines.

## Main statements

* `Statement.outline_agree`: tokens that are read alike make the same statements.
* `LinkedModule.ofSource_agree`: sources with the same statements on the same lines are linked
  alike.
-/

namespace EdgeBundle

/-- Both computations fail, or both have values and these are related. -/
inductive Agree {ε α β : Type} (S : α → β → Prop) : Except ε α → Except ε β → Prop
  | ok {a : α} {b : β} (h : S a b) : Agree S (.ok a) (.ok b)
  | error (e e' : ε) : Agree S (.error e) (.error e')

namespace Agree

variable {ε α β γ δ : Type} {S : α → β → Prop} {T : γ → δ → Prop} {x : Except ε α} {y : Except ε β}

theorem exists_eq_ok {a : α} (h : Agree S x y) (hx : x = .ok a) : ∃ b, y = .ok b ∧ S a b := by
  cases h with
  | ok hab =>
    cases hx
    exact ⟨_, rfl, hab⟩
  | error => cases hx

theorem bind {f : α → Except ε γ} {g : β → Except ε δ} (h : Agree S x y)
    (hfg : ∀ a b, S a b → Agree T (f a) (g b)) : Agree T (x >>= f) (y >>= g) := by
  cases h with
  | ok h => exact hfg _ _ h
  | error e e' => exact .error e e'

theorem map {f : α → γ} {g : β → δ} (h : Agree S x y) (hfg : ∀ a b, S a b → T (f a) (g b)) :
    Agree T (x.map f) (y.map g) := by
  cases h with
  | ok h => exact .ok (hfg _ _ h)
  | error e e' => exact .error e e'

end Agree

namespace Statement

/-- The same value has been read, and what follows is related token by token. -/
structure SameRead {α : Type} (R : Token → Token → Prop) (r r' : Read α) : Prop where
  /-- The values are the same. -/
  value : r.value = r'.value
  /-- The tokens that follow are related. -/
  rest : List.Forall₂ R r.rest r'.rest

/-- The same for what is read without its end. -/
structure SameLeft {α : Type} (R : Token → Token → Prop) (r r' : α × List Token) : Prop where
  /-- The values are the same. -/
  value : r.1 = r'.1
  /-- The tokens that follow are related. -/
  rest : List.Forall₂ R r.2 r'.2

section Readers

variable {R : Token → Token → Prop} {ts ts' : List Token}
  (hR : ∀ t t', R t t' → t.ReadsAs t')

include hR

theorem startsPunct_eq (h : List.Forall₂ R ts ts') (p : String) :
    startsPunct p ts = startsPunct p ts' := by
  cases h with
  | nil => rfl
  | cons ht _ => exact (hR _ _ ht).isPunct_eq p

theorem startsWord_eq (h : List.Forall₂ R ts ts') (w : String) :
    startsWord w ts = startsWord w ts' := by
  cases h with
  | nil => rfl
  | cons ht _ => exact (hR _ _ ht).isWord_eq w

omit hR in
theorem forall₂_tail (h : List.Forall₂ R ts ts') : List.Forall₂ R ts.tail ts'.tail := by
  cases h with
  | nil => exact .nil
  | cons _ hrest => exact hrest

theorem readName_agree (h : List.Forall₂ R ts ts') :
    Agree (SameRead R) (readName ts) (readName ts') := by
  cases h with
  | nil => exact .error _ _
  | cons ht hrest =>
    have hread := hR _ _ ht
    simp only [readName, ← hread.kind]
    split
    next hkind => exact .ok ⟨hread.text (by simp [hkind]) (by simp [hkind]), hrest⟩
    next => exact .error _ _

theorem readSpecifier_agree (h : List.Forall₂ R ts ts') :
    Agree (SameRead R) (readSpecifier ts) (readSpecifier ts') := by
  cases h with
  | nil => exact .error _ _
  | cons ht hrest =>
    have hread := hR _ _ ht
    simp only [readSpecifier, ← hread.kind]
    split
    next hkind =>
      rw [← hread.text (by simp [hkind]) (by simp [hkind])]
      split
      next => exact .error _ _
      next => exact .ok ⟨rfl, hrest⟩
    next => exact .error _ _

theorem readAlias_agree (name : String) (h : List.Forall₂ R ts ts') :
    Agree (SameLeft R) (readAlias name ts) (readAlias name ts') := by
  rw [readAlias, readAlias, ← startsWord_eq hR h]
  split
  next =>
    exact (readName_agree hR (forall₂_tail h)).map fun _ _ hr => ⟨by rw [hr.value], hr.rest⟩
  next => exact .ok ⟨rfl, h⟩

omit hR in
/-- Names are read one after another, each with its alias and the comma or brace after it. -/
theorem readNames_cons (t : Token) (ts : List Token) :
    readNames (t :: ts) =
      if t.isPunct "\x7d" then .ok ⟨[], t.stop, ts⟩
      else if t.kind ≠ .ident then .error ⟨"expected an identifier", some t⟩
      else
        match readAlias t.text ts with
        | .error e => .error e
        | .ok (_, []) => .error ⟨"expected ',' or '\x7d' in specifier list", none⟩
        | .ok (pair, s :: rest) =>
          if s.isPunct "," then
            (readNames rest).map fun r => ⟨pair :: r.value, r.stop, r.rest⟩
          else if s.isPunct "\x7d" then .ok ⟨[pair], s.stop, rest⟩
          else .error ⟨"expected ',' or '\x7d' in specifier list", some s⟩ := by
  rw [readNames]
  split
  · rfl
  split
  · rfl
  split <;> simp only [*]

theorem readNames_agree (h : List.Forall₂ R ts ts') :
    Agree (SameRead R) (readNames ts) (readNames ts') := by
  -- induction along the names, which the other tokens follow
  induction hlength : ts.length using Nat.strong_induction_on generalizing ts ts' with
  | _ length ih =>
    subst hlength
    cases h with
    | nil => rw [readNames]; exact .error _ _
    | @cons t t' ts ts' ht hrest =>
      have hread := hR _ _ ht
      rw [readNames_cons, readNames_cons, ← hread.isPunct_eq, ← hread.kind]
      split
      next => exact .ok ⟨rfl, hrest⟩
      split
      next => exact .error _ _
      next hkind =>
        rw [not_not] at hkind
        rw [← hread.text (by simp [hkind]) (by simp [hkind])]
        have hagree := readAlias_agree hR t.text hrest
        generalize halias : readAlias t.text ts = read at hagree ⊢
        generalize readAlias t.text ts' = read' at hagree ⊢
        cases hagree with
        | error => exact .error _ _
        | @ok read read' hsame =>
          obtain ⟨pair, left⟩ := read
          obtain ⟨pair', left'⟩ := read'
          obtain ⟨rfl : pair = pair', hleft⟩ := hsame
          cases hleft with
          | nil => exact .error _ _
          | @cons s s' left left' hs hleft =>
            have hsep := hR _ _ hs
            simp only [← hsep.isPunct_eq]
            split
            next =>
              have hlt : left.length < (t :: ts).length := by
                have := (readAlias_isSuffix halias).length_le
                rw [List.length_cons] at this ⊢
                omega
              exact (ih _ hlt hleft rfl).map fun _ _ hr => ⟨by rw [hr.value], hr.rest⟩
            split
            next => exact .ok ⟨rfl, hleft⟩
            next => exact .error _ _

theorem afterBrace?_agree (h : List.Forall₂ R ts ts') :
    (∃ stop rest stop' rest', afterBrace? ts = some (stop, rest) ∧
        afterBrace? ts' = some (stop', rest') ∧ List.Forall₂ R rest rest') ∨
      afterBrace? ts = none ∧ afterBrace? ts' = none := by
  induction h with
  | nil => exact .inr ⟨rfl, rfl⟩
  | cons ht hrest ih =>
    rw [afterBrace?, afterBrace?, ← (hR _ _ ht).isPunct_eq]
    split
    next => exact .inl ⟨_, _, _, _, rfl, rfl, hrest⟩
    next => exact ih

theorem skipAttributes_agree (stop stop' : Nat) (h : List.Forall₂ R ts ts') :
    Agree (fun r r' => List.Forall₂ R r.2 r'.2) (skipAttributes stop ts)
      (skipAttributes stop' ts') := by
  have htail := forall₂_tail h
  rw [skipAttributes, skipAttributes, ← startsWord_eq hR h, ← startsWord_eq hR h,
    ← startsPunct_eq hR htail]
  split
  next =>
    rcases afterBrace?_agree hR (forall₂_tail htail) with
      ⟨_, _, _, _, hfound, hfound', hrest⟩ | ⟨hnone, hnone'⟩
    · rw [hfound, hfound']
      exact .ok hrest
    · rw [hnone, hnone']
      exact .error _ _
  next => exact .ok h

theorem takeSemicolon_agree (stop stop' : Nat) (h : List.Forall₂ R ts ts') :
    List.Forall₂ R (takeSemicolon stop ts).2 (takeSemicolon stop' ts').2 := by
  cases h with
  | nil => exact .nil
  | cons ht hrest =>
    rw [takeSemicolon, takeSemicolon, ← (hR _ _ ht).isPunct_eq]
    split
    next => exact hrest
    next => exact .cons ht hrest

theorem readDefaultName_agree (h : List.Forall₂ R ts ts') :
    Agree (SameLeft R) (readDefaultName ts) (readDefaultName ts') := by
  cases h with
  | nil => exact .ok ⟨rfl, .nil⟩
  | @cons t t' ts ts' ht hrest =>
    have hread := hR _ _ ht
    by_cases hkind : t.kind = .ident
    · have htail := forall₂_tail hrest
      simp only [readDefaultName, ← hread.kind, ← hread.text (by simp [hkind]) (by simp [hkind]),
        ← startsPunct_eq hR hrest, ← startsPunct_eq hR htail]
      split
      · split
        · split
          · exact .ok ⟨rfl, htail⟩
          · exact .error _ _
        · exact .ok ⟨rfl, hrest⟩
      · exact .ok ⟨rfl, .cons ht hrest⟩
    · have hkind' : ¬ t'.kind = .ident := hread.kind ▸ hkind
      simp only [readDefaultName, hkind, hkind', false_and, if_false]
      exact .ok ⟨rfl, .cons ht hrest⟩

theorem readClause_agree (h : List.Forall₂ R ts ts') :
    Agree (SameLeft R) (readClause ts) (readClause ts') := by
  rw [readClause, readClause]
  refine (readDefaultName_agree hR h).bind ?_
  rintro ⟨name, ts⟩ ⟨-, ts'⟩ ⟨rfl, hts⟩
  have htail := forall₂_tail hts
  simp only [← startsPunct_eq hR hts, ← startsWord_eq hR htail]
  split
  · split
    · exact (readName_agree hR (forall₂_tail htail)).bind fun _ _ hr =>
        .ok ⟨by rw [hr.value], hr.rest⟩
    · exact .error _ _
  split
  · exact (readNames_agree hR htail).bind fun _ _ hr => .ok ⟨by rw [hr.value], hr.rest⟩
  split
  · exact .ok ⟨rfl, hts⟩
  · exact .error _ _

/-! ## Forms -/

theorem readImport_agree (stop stop' : Nat) (h : List.Forall₂ R ts ts') :
    Agree (SameRead R) (readImport stop ts) (readImport stop' ts') := by
  cases h with
  | nil => exact .error _ _
  | @cons t t' rest rest' ht hrest =>
    have hread := hR _ _ ht
    simp only [readImport, ← hread.isPunct_eq, ← hread.kind]
    split
    · exact .ok ⟨rfl, .cons ht hrest⟩
    split
    -- a call
    · obtain - | @⟨s, s', -, -, hs, - | @⟨close, close', _, _, hclose, hafter⟩⟩ := hrest
      · exact .ok ⟨rfl, .nil⟩
      · exact .ok ⟨rfl, .cons hs .nil⟩
      · simp only [← (hR _ _ hs).kind, ← (hR _ _ hclose).isPunct_eq]
        split
        · exact (readSpecifier_agree hR (.cons hs (.cons hclose hafter))).map fun _ _ hr =>
            ⟨by rw [hr.value], hafter⟩
        · exact .ok ⟨rfl, .cons hs (.cons hclose hafter)⟩
    split
    -- a specifier alone
    · exact (readSpecifier_agree hR (.cons ht hrest)).bind fun _ _ hr =>
        .ok ⟨by rw [hr.value], takeSemicolon_agree hR _ _ hr.rest⟩
    -- bindings and a specifier
    · refine (readClause_agree hR (.cons ht hrest)).bind ?_
      rintro ⟨clause, ts⟩ ⟨-, ts'⟩ ⟨rfl, hts⟩
      simp only [← startsWord_eq hR hts]
      split
      · refine (readSpecifier_agree hR (forall₂_tail hts)).bind fun r r' hr => ?_
        refine (skipAttributes_agree hR _ _ hr.rest).bind fun _ _ hskipped => ?_
        exact .ok ⟨by rw [hr.value], takeSemicolon_agree hR _ _ hskipped⟩
      · exact .error _ _

theorem headName?_eq (h : List.Forall₂ R ts ts') : headName? ts = headName? ts' := by
  cases h with
  | nil => rfl
  | @cons t t' _ _ ht _ =>
    have hread := hR _ _ ht
    rw [headName?, headName?, List.head?_cons, List.head?_cons, Option.filter_some,
      Option.filter_some, ← hread.kind]
    split
    next hkind =>
      rw [beq_iff_eq] at hkind
      rw [Option.map_some, Option.map_some, hread.text (by simp [hkind]) (by simp [hkind])]
    next => rfl

theorem declaredName?_eq (h : List.Forall₂ R ts ts') : declaredName? ts = declaredName? ts' := by
  have hasync : List.Forall₂ R
      (if startsWord "async" ts && startsWord "function" ts.tail then ts.tail else ts)
      (if startsWord "async" ts' && startsWord "function" ts'.tail then ts'.tail else ts') := by
    rw [← startsWord_eq hR h, ← startsWord_eq hR (forall₂_tail h)]
    split
    · exact forall₂_tail h
    · exact h
  simp only [declaredName?]
  generalize (if startsWord "async" ts && startsWord "function" ts.tail then ts.tail else ts) = us
    at hasync ⊢
  generalize (if startsWord "async" ts' && startsWord "function" ts'.tail then ts'.tail
    else ts') = us' at hasync ⊢
  have htail := forall₂_tail hasync
  rw [← startsWord_eq hR hasync, ← startsWord_eq hR hasync, ← startsWord_eq hR htail,
    ← startsPunct_eq hR htail, headName?_eq hR htail]
  split
  · split
    · exact headName?_eq hR (forall₂_tail htail)
    · exact headName?_eq hR htail
  · rfl

theorem readExportAlias_agree (h : List.Forall₂ R ts ts') :
    Agree (SameLeft R) (readExportAlias ts) (readExportAlias ts') := by
  rw [readExportAlias, readExportAlias, ← startsWord_eq hR h]
  split
  · exact (readName_agree hR (forall₂_tail h)).map fun _ _ hr => ⟨by rw [hr.value], hr.rest⟩
  · exact .ok ⟨rfl, h⟩

theorem readExportAll_agree (h : List.Forall₂ R ts ts') :
    Agree (SameRead R) (readExportAll ts) (readExportAll ts') := by
  rw [readExportAll, readExportAll]
  refine (readExportAlias_agree hR h).bind ?_
  rintro ⟨name, ts⟩ ⟨-, ts'⟩ ⟨rfl, hts⟩
  simp only [← startsWord_eq hR hts]
  split
  · exact (readSpecifier_agree hR (forall₂_tail hts)).bind fun _ _ hr =>
      .ok ⟨by rw [hr.value], takeSemicolon_agree hR _ _ hr.rest⟩
  · exact .error _ _

theorem readExportNames_agree (h : List.Forall₂ R ts ts') :
    Agree (SameRead R) (readExportNames ts) (readExportNames ts') := by
  rw [readExportNames, readExportNames]
  refine (readNames_agree hR h).bind fun names names' hnames => ?_
  rw [← startsWord_eq hR hnames.rest, hnames.value]
  split
  · exact (readSpecifier_agree hR (forall₂_tail hnames.rest)).bind fun _ _ hr =>
      .ok ⟨by rw [hr.value], takeSemicolon_agree hR _ _ hr.rest⟩
  · exact .ok ⟨rfl, takeSemicolon_agree hR _ _ hnames.rest⟩

theorem readExport_agree (stop stop' : Nat) (h : List.Forall₂ R ts ts') :
    Agree (SameRead R) (readExport stop ts) (readExport stop' ts') := by
  cases h with
  | nil => exact .error _ _
  | @cons t t' rest rest' ht hrest =>
    have hread := hR _ _ ht
    have hall : List.Forall₂ R (t :: rest) (t' :: rest') := .cons ht hrest
    simp only [readExport, ← hread.isPunct_eq, ← hread.isWord_eq]
    split
    · exact .ok ⟨rfl, hall⟩
    split
    · exact readExportNames_agree hR hrest
    split
    · exact readExportAll_agree hR hrest
    split
    · rw [← declaredName?_eq hR hrest]
      obtain - | ⟨hd, hafter⟩ := hrest
      · cases declaredName? [] <;> exact .ok ⟨rfl, .nil⟩
      · cases declaredName? _ <;> exact .ok ⟨rfl, .cons hd hafter⟩
    split
    · rw [← headName?_eq hR hrest]
      cases headName? rest with
      | some name => exact .ok ⟨rfl, hall⟩
      | none => exact .error _ _
    · rw [← declaredName?_eq hR hall]
      cases declaredName? (t :: rest) with
      | some name => exact .ok ⟨rfl, hall⟩
      | none => exact .error _ _

theorem readForm_agree {t t' : Token} (ht : R t t') (hkey : isKeyword t = true)
    (h : List.Forall₂ R ts ts') : Agree (SameRead R) (readForm t ts) (readForm t' ts') := by
  have hread := hR _ _ ht
  have hkind : t.kind = .ident := by
    rw [isKeyword, Bool.or_eq_true, Token.isWord_iff, Token.isWord_iff] at hkey
    exact hkey.elim And.left And.left
  rw [readForm, readForm, ← hread.text (by simp [hkind]) (by simp [hkind])]
  split
  · exact readImport_agree hR _ _ h
  · exact readExport_agree hR _ _ h

/-! ## Statements -/

omit hR in
/-- The outlines have the same statements at related tokens, and both end before their source does
or neither. -/
structure SameOutline (R : Token → Token → Prop) (o o' : Outline) : Prop where
  /-- The statements are of the same forms, and their keywords are related. -/
  statements : List.Forall₂ (fun s s' => s.form = s'.form ∧
    ∃ t t', R t t' ∧ s.start = t.start ∧ s'.start = t'.start) o.statements o'.statements
  /-- A form that is not supported ends both or none. -/
  fault : o.fault = none ↔ o'.fault = none

theorem isKeyword_eq {t t' : Token} (h : R t t') : isKeyword t = isKeyword t' := by
  rw [isKeyword, isKeyword, (hR _ _ h).isWord_eq, (hR _ _ h).isWord_eq]

/-- Tokens that are read alike make the same statements. -/
theorem outline_agree (afterDot : Bool) (h : List.Forall₂ R ts ts') :
    SameOutline R (outline afterDot ts) (outline afterDot ts') := by
  -- on the number of tokens, since a form is read up to tokens that lie any number further on
  induction hlength : ts.length using Nat.strong_induction_on generalizing afterDot ts ts' with
  | _ length ih =>
    subst hlength
    cases h with
    | nil =>
      rw [outline]
      exact ⟨.nil, Iff.rfl⟩
    | @cons t t' ts ts' ht hrest =>
      have hsame : startsForm afterDot t ts = startsForm afterDot t' ts' := by
        rw [startsForm, startsForm, isKeyword_eq hR ht, startsPunct_eq hR hrest]
      by_cases hstarts : startsForm afterDot t ts = true
      · have hstarts' := hsame ▸ hstarts
        have hkey : isKeyword t = true := by
          rw [startsForm, Bool.and_eq_true, Bool.and_eq_true] at hstarts
          exact hstarts.1.1
        -- both forms are read or neither is
        have hagree := readForm_agree hR ht hkey hrest
        generalize hread : readForm t ts = result at hagree
        generalize hread' : readForm t' ts' = result' at hagree
        cases hagree with
        | error =>
          rw [outline_cons_of_error hstarts hread, outline_cons_of_error hstarts' hread']
          exact ⟨.nil, by simp⟩
        | @ok found found' hfound =>
          obtain ⟨form, stop, rest⟩ := found
          obtain ⟨form', stop', rest'⟩ := found'
          obtain ⟨rfl : form = form', hleft⟩ := hfound
          have hlt : rest.length < (t :: ts).length :=
            Nat.lt_succ_of_le (readForm_length_le hread)
          obtain ⟨hstatements, hfault⟩ := ih _ hlt false hleft rfl
          cases form with
          | none =>
            rw [outline_cons_of_none hstarts hread, outline_cons_of_none hstarts' hread']
            exact ⟨hstatements, hfault⟩
          | some form =>
            rw [outline_cons_of_form hstarts hread, outline_cons_of_form hstarts' hread']
            exact ⟨.cons ⟨rfl, t, t', ht, rfl, rfl⟩ hstatements, hfault⟩
      · rw [outline_cons_of_not_startsForm hstarts,
          outline_cons_of_not_startsForm (hsame ▸ hstarts), ← (hR _ _ ht).isPunct_eq,
          ← (hR _ _ ht).isPunct_eq]
        exact ih _ (Nat.lt_succ_self _) _ hrest rfl

end Readers

end Statement

namespace LinkedModule

open Statement

/-- What a statement contributes hangs on its form and line, its change of the source apart. -/
theorem exists_effect_of_form_eq {site : Site} {line : Nat} {s s' : Statement} {e : Effect}
    (hform : s.form = s'.form) (h : (effect site line s).result = .ok e) :
    ∃ edit, (effect site line s').result = .ok { e with edit } := by
  have hmoved := (result_effect_eq_ok_iff.mp h).move s'.start s'.stop
  rw [hform] at hmoved
  exact ⟨_, result_effect_eq_ok_iff.mpr hmoved⟩

/-- The modules export the same names and refer to the same modules from the same lines. -/
structure SameLinks (m m' : LinkedModule) : Prop where
  /-- They export the same. -/
  exports : m.exports = m'.exports
  /-- They refer to the same. -/
  references : m.references = m'.references

/-- What a module exports and refers to does not hang on how its source is changed. -/
theorem sameLinks_ofEffects {effects effects' : List Effect}
    (h : List.Forall₂ (fun e e' => ∃ edit, e' = { e with edit }) effects effects') (path : RelPath)
    (src src' : List Char) :
    SameLinks (ofEffects path src effects) (ofEffects path src' effects') := by
  have hsame : effects.flatMap Effect.entries = effects'.flatMap Effect.entries ∧
      effects.any Effect.setsDefault = effects'.any Effect.setsDefault ∧
      effects.filterMap Effect.reference = effects'.filterMap Effect.reference := by
    induction h with
    | nil => exact ⟨rfl, rfl, rfl⟩
    | cons he _ ih =>
      obtain ⟨edit, rfl⟩ := he
      simp only [List.flatMap_cons, List.any_cons, List.filterMap_cons, ih, and_self]
  obtain ⟨hentries, hdefault, hreferences⟩ := hsame
  refine ⟨?_, hreferences⟩
  simp [ofEffects, Manifest.names, Manifest.ofEffects, hentries, hdefault]

/-- The same statements on the same lines have effects that differ in their changes only. -/
theorem exists_effects_of_forall₂ {site : Site} {line line' : Statement → Nat}
    {ss ss' : List Statement} {effects : List Effect}
    (hss : List.Forall₂ (fun s s' => s.form = s'.form ∧ line s = line' s') ss ss')
    (h : List.Forall₂ (fun s e => (effect site (line s) s).result = .ok e) ss effects) :
    ∃ effects', List.Forall₂ (fun s e => (effect site (line' s) s).result = .ok e) ss' effects' ∧
      List.Forall₂ (fun e e' => ∃ edit, e' = { e with edit }) effects effects' := by
  induction hss generalizing effects with
  | nil =>
    cases h
    exact ⟨[], .nil, .nil⟩
  | cons hs _ ih =>
    obtain - | ⟨he, heffects⟩ := h
    obtain ⟨effects', heffects', hsame⟩ := ih heffects
    obtain ⟨edit, he'⟩ := exists_effect_of_form_eq hs.1 he
    exact ⟨_, .cons (hs.2 ▸ he') heffects', .cons ⟨edit, rfl⟩ hsame⟩

/-- Outlines with the same statements on the same lines. -/
abbrev SameStatements (src src' : List Char) (ts ts' : List Token) : Prop :=
  SameOutline (Token.SameLine src src') (outline false ts) (outline false ts')

theorem sameStatements_of_forall₂ {src src' : List Char} {ts ts' : List Token}
    (h : List.Forall₂ (Token.SameLine src src') ts ts') : SameStatements src src' ts ts' :=
  outline_agree (fun _ _ h => h.readsAs) false h

theorem SameStatements.symm {src src' : List Char} {ts ts' : List Token}
    (h : SameStatements src src' ts ts') : SameStatements src' src ts' ts where
  statements := h.statements.flip.imp fun _ _ ⟨hform, t, t', ht, hstart, hstart'⟩ =>
    ⟨hform.symm, t', t, ht.symm, hstart', hstart⟩
  fault := h.fault.symm

section Linking

variable {config : Config} {path : RelPath} {src src' : String} {ts ts' : List Token}

/-- A source with the same statements on the same lines is linked alike. -/
theorem exists_ofSource_of_sameStatements {m : LinkedModule} (hts : tokenize src = .ok ts)
    (hts' : tokenize src' = .ok ts') (hsame : SameStatements src.toList src'.toList ts ts')
    (h : (ofSource config path src).result = .ok m) :
    ∃ m', (ofSource config path src').result = .ok m' ∧ SameLinks m m' := by
  obtain ⟨effects, heffects, rfl⟩ := result_ofSource_eq_ok_iff.mp h
  obtain ⟨tokens, htokens, hfault, heffects⟩ := result_effectsOf_eq_ok_iff.mp heffects
  obtain rfl : tokens = ts := Except.ok.inj (htokens.symm.trans hts)
  -- a statement is on the line of its keyword
  have hlines := hsame.statements.imp fun s s' ⟨hform, t, t', ht, hstart, hstart'⟩ =>
    (⟨hform, by rw [hstart, hstart', ht.line]⟩ : s.form = s'.form ∧
      lineAt src.toList s.start = lineAt src'.toList s'.start)
  obtain ⟨effects', heffects', hchange⟩ := exists_effects_of_forall₂ hlines heffects
  exact ⟨_, result_ofSource_eq_ok_iff.mpr ⟨effects', result_effectsOf_eq_ok_iff.mpr
    ⟨ts', hts', hsame.fault.mp hfault, heffects'⟩, rfl⟩, sameLinks_ofEffects hchange _ _ _⟩

/-- A source that is linked has tokens. -/
theorem exists_tokenize_of_result {m : LinkedModule}
    (h : (ofSource config path src).result = .ok m) :
    ∃ ts, tokenize src = .ok ts := by
  obtain ⟨effects, heffects, -⟩ := result_ofSource_eq_ok_iff.mp h
  obtain ⟨ts, hts, -⟩ := result_effectsOf_eq_ok_iff.mp heffects
  exact ⟨ts, hts⟩

/-- Sources that have tokens together, and then the same statements on the same lines, are linked
alike. -/
theorem ofSource_agree
    (h : ∀ ts, tokenize src = .ok ts →
      ∃ ts', tokenize src' = .ok ts' ∧ SameStatements src.toList src'.toList ts ts')
    (h' : ∀ ts', tokenize src' = .ok ts' → ∃ ts, tokenize src = .ok ts) :
    Agree SameLinks (ofSource config path src).result (ofSource config path src').result := by
  cases hm : (ofSource config path src).result with
  | ok m =>
    obtain ⟨ts, hts⟩ := exists_tokenize_of_result hm
    obtain ⟨ts', hts', hsame⟩ := h ts hts
    obtain ⟨m', hm', hlinks⟩ := exists_ofSource_of_sameStatements hts hts' hsame hm
    rw [hm']
    exact .ok hlinks
  | error e =>
    cases hm' : (ofSource config path src').result with
    | error e' => exact .error e e'
    | ok m' =>
      obtain ⟨us', hus'⟩ := exists_tokenize_of_result hm'
      obtain ⟨ts, hts⟩ := h' us' hus'
      obtain ⟨ts', hts', hsame⟩ := h ts hts
      obtain ⟨m, hok, -⟩ := exists_ofSource_of_sameStatements hts' hts hsame.symm hm'
      rw [hm] at hok
      cases hok

end Linking

end LinkedModule

end EdgeBundle
