import EdgeBundle.Proofs.Module.Edit
import EdgeBundle.Proofs.Module.Effect
import EdgeBundle.Proofs.Module.Outline
import EdgeBundle.Proofs.Token.Cover

/-!
# Bodies of linked modules

The body of a linked module is its source with the hashbang line and the statements replaced. All
else of the source is in the body, unchanged and in order.

## Main definitions

* `IsBody`: a source with edits at its hashbang line and its keywords.

## Main statements

* `result_effectsOf_eq_ok_iff` and `result_ofSource_eq_ok_iff`: linking step by step.
* `exists_error_ofSource_iff`: what makes a module an error.
* `ofSource_isBody`: the body of every linked module.
-/

namespace EdgeBundle.LinkedModule

open Logged

variable {config : Config} {path : RelPath} {src : String} {effects : List Effect}

/-! ## Linking step by step -/

/-- A source has effects exactly if it has tokens, every form in it can be read, and every statement
has an effect. -/
theorem result_effectsOf_eq_ok_iff :
    (effectsOf config path src).result = .ok effects ↔
      ∃ tokens, tokenize src = .ok tokens ∧ (Statement.outline false tokens).fault = none ∧
        List.Forall₂ (fun s e => (effect (.ofConfig config path)
            (lineAt src.toList s.start) s).result = .ok e)
          (Statement.outline false tokens).statements effects := by
  simp only [effectsOf, result_bind_eq_ok_iff, result_ofExcept, result_mapM_eq_ok_iff]
  constructor
  · rintro ⟨tokens, htokens, effects', heffects, hfault⟩
    cases hlex : tokenize src with
    | error e => rw [hlex] at htokens; cases htokens
    | ok ts =>
      rw [hlex] at htokens
      cases htokens
      -- a form that cannot be read is thrown after the effects
      split at hfault
      next fault _ =>
        obtain ⟨_, hthrow, -⟩ := result_bind_eq_ok_iff.mp hfault
        cases hthrow
      next hnone =>
        cases hfault
        refine ⟨tokens, rfl, ?_, heffects⟩
        cases hf : (Statement.outline false tokens).fault with
        | none => rfl
        | some fault => exact absurd hf (hnone fault)
  · rintro ⟨tokens, hlex, hfault, heffects⟩
    refine ⟨tokens, by rw [hlex]; rfl, effects, heffects, ?_⟩
    rw [hfault]
    rfl

/-- A source can be linked exactly if it has effects. -/
theorem result_ofSource_eq_ok_iff {m : LinkedModule} :
    (ofSource config path src).result = .ok m ↔
      ∃ effects, (effectsOf config path src).result = .ok effects ∧
        ofEffects path src.toList effects = m := by
  simp only [ofSource, result_bind_eq_ok_iff, result_pure, Except.ok.injEq]

/-- A source with tokens is an error exactly if a form in it cannot be read or a statement has no
effect. -/
theorem exists_error_ofSource_iff {tokens : List Token} (htokens : tokenize src = .ok tokens) :
    (∃ e, (ofSource config path src).result = .error e) ↔
      (Statement.outline false tokens).fault ≠ none ∨
        ∃ s ∈ (Statement.outline false tokens).statements, ∃ e,
          (effect (.ofConfig config path) (lineAt src.toList s.start) s).result = .error e := by
  constructor
  · rintro ⟨e, herror⟩
    by_contra! hnone
    obtain ⟨hfault, heffects⟩ := hnone
    have hstatement : ∀ s ∈ (Statement.outline false tokens).statements, ∃ x,
        (effect (.ofConfig config path) (lineAt src.toList s.start) s).result = .ok x := by
      intro s hs
      cases heffect : (effect (.ofConfig config path) (lineAt src.toList s.start) s).result with
      | ok x => exact ⟨x, rfl⟩
      | error e => exact absurd heffect (heffects s hs e)
    obtain ⟨effects, heffects⟩ := exists_result_mapM_eq_ok hstatement
    have hok := result_effectsOf_eq_ok_iff.mpr
      ⟨tokens, htokens, hfault, result_mapM_eq_ok_iff.mp heffects⟩
    rw [result_ofSource_eq_ok_iff.mpr ⟨effects, hok, rfl⟩] at herror
    cases herror
  · intro h
    cases hresult : (ofSource config path src).result with
    | error e => exact ⟨e, rfl⟩
    | ok m =>
      obtain ⟨effects, heffectsOf, -⟩ := result_ofSource_eq_ok_iff.mp hresult
      obtain ⟨tokens', htokens', hfault, heffects⟩ := result_effectsOf_eq_ok_iff.mp heffectsOf
      obtain rfl := Except.ok.inj (htokens.symm.trans htokens')
      -- a module has an effect for every statement and no form that cannot be read
      obtain hreading | ⟨s, hs, e, herror⟩ := h
      · exact absurd hfault hreading
      · obtain ⟨x, -, hx⟩ := exists_mem_of_forall₂ heffects hs
        rw [herror] at hx
        cases hx

/-! ## Wrapping -/

/-- A source whose only statement is at its start. -/
theorem apply_editsOf_singleton {cut rest : List Char} {replacement : String} {e : Effect}
    (hbang : ¬ ['#', '!'] <+: cut ++ rest) (he : e.edit = some ⟨0, utf8Width cut, replacement⟩) :
    Edit.apply (editsOf (cut ++ rest) [e]) (cut ++ rest) = replacement.toList ++ rest := by
  have hnone : hashbangEdits (cut ++ rest) = [] := by
    rw [hashbangEdits, if_neg fun hprefix => hbang (List.isPrefixOf_iff_prefix.mp hprefix)]
  rw [editsOf, hnone, List.nil_append, List.filterMap_cons_some he, List.filterMap_nil,
    Edit.apply_start]

theorem registration_singleton (path : RelPath) (name value : String) :
    registration path ⟨[], [(name, value)], false⟩ =
      "  __MODS__[" ++ quoted path.text ++ "] = \x7b " ++ pairText name value ++ " \x7d;\n" := by
  rw [registration, if_neg (by simp [Manifest.isEmpty])]
  simp [Manifest.parts, commaList, registry]

/-- A line break is put after a body that ends with a semicolon. -/
theorem wrap_of_semicolon {body : List Char} (hlast : body.getLast? = some ';') (path : RelPath)
    (manifest : Manifest) :
    wrap path body manifest =
      opening path ++ String.ofList body ++ "\n" ++ registration path manifest ++ "\x7d)();\n" := by
  rw [wrap, if_neg (by simp [hlast])]

/-- The code of a module whose only statement is at its start, where a semicolon is left at the
end. -/
theorem code_ofEffects_singleton {cut rest : List Char} {replacement : String} {e : Effect}
    (hbang : ¬ ['#', '!'] <+: cut ++ rest) (he : e.edit = some ⟨0, utf8Width cut, replacement⟩)
    (hlast : (replacement.toList ++ rest).getLast? = some ';') :
    (ofEffects path (cut ++ rest) [e]).code =
      opening path ++ String.ofList (replacement.toList ++ rest) ++ "\n" ++
        registration path (Manifest.ofEffects [e]) ++ "\x7d)();\n" := by
  rw [ofEffects, apply_editsOf_singleton hbang he, wrap_of_semicolon hlast]

/-! ## Edits of statements -/

/-- What takes the place of a statement takes exactly its place. -/
theorem span_of_edit {site : Site} {line : Nat} {s : Statement} {effect : Effect} {e : Edit}
    (h : (LinkedModule.effect site line s).result = .ok effect) (he : effect.edit = some e) :
    e.start = s.start ∧ e.stop = s.stop := by
  obtain ⟨start, stop, form⟩ := s
  cases result_effect_eq_ok_iff.mp h <;> cases he <;> exact ⟨rfl, rfl⟩

/-! ## Edits of a source -/

section Spans

variable {site : Site} {line : Statement → Nat} {ss : List Statement}

/-- Every edit of effects stands in the place of one of their statements. -/
theorem exists_statement_of_mem_edits
    (h : List.Forall₂ (fun s e => (effect site (line s) s).result = .ok e) ss effects)
    {e : Edit} (he : e ∈ effects.filterMap Effect.edit) :
    ∃ s ∈ ss, e.start = s.start ∧ e.stop = s.stop := by
  induction h with
  | nil => cases he
  | @cons s x ss effects hx _ ih =>
    rw [List.mem_filterMap] at he
    obtain ⟨y, hy, hedit⟩ := he
    rcases List.mem_cons.mp hy with rfl | hy
    · exact ⟨s, List.mem_cons_self, span_of_edit hx hedit⟩
    · obtain ⟨s', hs', hspan⟩ := ih (List.mem_filterMap.mpr ⟨y, hy, hedit⟩)
      exact ⟨s', List.mem_cons_of_mem _ hs', hspan⟩

/-- The edits of statements in order are in order. -/
theorem pairwise_edits
    (h : List.Forall₂ (fun s e => (effect site (line s) s).result = .ok e) ss effects)
    (hss : ss.Pairwise fun a b => a.stop ≤ b.start) :
    (effects.filterMap Effect.edit).Pairwise fun a b => a.stop ≤ b.start := by
  induction h with
  | nil => exact .nil
  | @cons s x ss effects hx hrest ih =>
    obtain ⟨hs, hss⟩ := List.pairwise_cons.mp hss
    cases hedit : x.edit with
    | none => rw [List.filterMap_cons_none hedit]; exact ih hss
    | some e =>
      rw [List.filterMap_cons_some hedit]
      refine .cons (fun e' he' => ?_) (ih hss)
      obtain ⟨s', hs', hstart, -⟩ := exists_statement_of_mem_edits hrest he'
      rw [(span_of_edit hx hedit).2, hstart]
      exact hs s' hs'

end Spans

/-- The tokens of an accepted source are in order. -/
theorem inOrder_of_tokenize {tokens : List Token} (h : tokenize src = .ok tokens) :
    Statement.InOrder tokens where
  start_le_stop _ ht := Nat.le_of_lt ((Lexer.tokenize_eq_ok_iff.mp h).covers.start_lt_stop ht)
  pairwise := (Lexer.tokenize_eq_ok_iff.mp h).covers.pairwise_stop_le_start

/-- A hashbang line is cut off before all tokens. -/
theorem mem_hashbangEdits {cs : List Char} {e : Edit} (h : e ∈ hashbangEdits cs) :
    ['#', '!'] <+: cs ∧ e.start = 0 ∧
      e.stop = utf8Width (cs.take (Lexer.hashbangLength cs)) := by
  simp only [hashbangEdits] at h
  split at h
  next hbang =>
    rw [List.mem_singleton] at h
    subst h
    exact ⟨List.isPrefixOf_iff_prefix.mp hbang, rfl, rfl⟩
  next => cases h

/-- The body is the source with edits at its hashbang line and its keywords. -/
structure IsBody (src : List Char) (tokens : List Token) (edits : List Edit)
    (body : List Char) : Prop where
  /-- The spans of the edits are whole characters, in order and apart. -/
  ordered : Edit.Ordered src edits
  /-- Every span ends inside the source. -/
  stop_le_width : ∀ e ∈ edits, e.stop ≤ utf8Width src
  /-- Every span starts at the hashbang line or at a keyword. -/
  starts : ∀ e ∈ edits, (e.start = 0 ∧ ['#', '!'] <+: src) ∨
    ∃ t ∈ tokens, Statement.isKeyword t = true ∧ e.start = t.start
  /-- All but the spans is kept in place. -/
  splices : Edit.Splices 0 src edits body

section Edits

variable {tokens : List Token} {site : Site} {line : Statement → Nat}

/-- An edit of a source cuts off its hashbang line or takes the place of a statement. -/
theorem mem_editsOf (htokens : tokenize src = .ok tokens)
    (heffects : List.Forall₂ (fun s e => (effect site (line s) s).result = .ok e)
      (Statement.outline false tokens).statements effects)
    {e : Edit} (he : e ∈ editsOf src.toList effects) :
    (['#', '!'] <+: src.toList ∧ e.start = 0 ∧
        e.stop = utf8Width (src.toList.take (Lexer.hashbangLength src.toList))) ∨
      ∃ s : Statement, s.Spans tokens ∧ e.start = s.start ∧ e.stop = s.stop := by
  rcases List.mem_append.mp he with he | he
  · exact .inl (mem_hashbangEdits he)
  · obtain ⟨s, hs, hspan⟩ := exists_statement_of_mem_edits heffects he
    exact .inr ⟨s, Statement.spans_of_mem_outline (inOrder_of_tokenize htokens) hs, hspan⟩

theorem ordered_editsOf (htokens : tokenize src = .ok tokens)
    (heffects : List.Forall₂ (fun s e => (effect site (line s) s).result = .ok e)
      (Statement.outline false tokens).statements effects) :
    Edit.Ordered src.toList (editsOf src.toList effects) where
  start_le_stop e he := by
    rcases mem_editsOf htokens heffects he with ⟨-, hstart, -⟩ | ⟨s, hs, hstart, hstop⟩
    · rw [hstart]
      exact Nat.zero_le _
    · rw [hstart, hstop]
      exact hs.start_le_stop
  isBoundary_start e he := by
    rcases mem_editsOf htokens heffects he with ⟨-, hstart, -⟩ | ⟨s, hs, hstart, -⟩
    · rw [hstart]
      exact .zero _
    · obtain ⟨t, ht, -, hkey⟩ := hs.exists_keyword
      rw [hstart, hkey]
      exact (Lexer.standsAt_of_tokenize htokens ht).isBoundary_start
  isBoundary_stop e he := by
    rcases mem_editsOf htokens heffects he with ⟨-, -, hstop⟩ | ⟨s, hs, -, hstop⟩
    · rw [hstop]
      exact ⟨_, _, (List.take_append_drop _ _).symm, rfl⟩
    · obtain ⟨t, ht, hcut | hcut⟩ := hs.exists_stop
      · rw [hstop, hcut]
        exact (Lexer.standsAt_of_tokenize htokens ht).isBoundary_start
      · rw [hstop, hcut]
        exact (Lexer.standsAt_of_tokenize htokens ht).isBoundary_stop
  pairwise := by
    have horder := inOrder_of_tokenize htokens
    refine List.pairwise_append.mpr ⟨?_, pairwise_edits heffects
      (Statement.pairwise_outline horder), fun e he e' he' => ?_⟩
    · rw [hashbangEdits]
      split <;> simp
    -- the hashbang line ends before the first token
    · obtain ⟨s, hs, hstart, -⟩ := exists_statement_of_mem_edits heffects he'
      obtain ⟨t, ht, -, hkey⟩ := (Statement.spans_of_mem_outline horder hs).exists_keyword
      rw [(mem_hashbangEdits he).2.2, hstart, hkey]
      exact (Lexer.tokenize_eq_ok_iff.mp htokens).covers.offset_le_start ht

end Edits

/-- The body that is put inside the wrapper of a linked module is its source with the hashbang line
and the statements replaced, and all else is kept. Without either the source is kept as it is, and
the module publishes and refers to nothing. -/
theorem ofSource_isBody {m : LinkedModule} (h : (ofSource config path src).result = .ok m) :
    ∃ tokens effects body, tokenize src = .ok tokens ∧
      (effectsOf config path src).result = .ok effects ∧
      IsBody src.toList tokens (editsOf src.toList effects) body ∧
      m.code = wrap path body (Manifest.ofEffects effects) ∧
      (¬ ['#', '!'] <+: src.toList → (∀ t ∈ tokens, Statement.isKeyword t = false) →
        m = ⟨path, wrap path src.toList ⟨[], [], false⟩, [], []⟩) := by
  obtain ⟨effects, heffectsOf, rfl⟩ := result_ofSource_eq_ok_iff.mp h
  obtain ⟨tokens, htokens, -, heffects⟩ := result_effectsOf_eq_ok_iff.mp heffectsOf
  have hordered := ordered_editsOf htokens heffects
  have hbody : IsBody src.toList tokens (editsOf src.toList effects)
      (Edit.apply (editsOf src.toList effects) src.toList) := {
    ordered := hordered
    stop_le_width := fun e he => (hordered.isBoundary_stop e he).le_width
    starts := fun e he => by
      rcases mem_editsOf htokens heffects he with ⟨hbang, hstart, -⟩ | ⟨s, hs, hstart, -⟩
      · exact .inl ⟨hstart, hbang⟩
      · obtain ⟨t, ht, hkey, hkeystart⟩ := hs.exists_keyword
        exact .inr ⟨t, ht, hkey, hstart.trans hkeystart⟩
    splices := Edit.splices_apply hordered }
  refine ⟨tokens, effects, _, htokens, heffectsOf, hbody, rfl, fun hbang hkey => ?_⟩
  -- without a hashbang line and keywords there is nothing to replace
  have hnone : hashbangEdits src.toList = [] := by
    rw [hashbangEdits, if_neg (fun hprefix => hbang (List.isPrefixOf_iff_prefix.mp hprefix))]
  rw [Statement.outline_eq_nil hkey, List.forall₂_nil_left_iff] at heffects
  subst heffects
  simp [ofEffects, editsOf, hnone, Edit.apply, Edit.applyFrom, Manifest.ofEffects, Manifest.names]

/-- A default export of a call to import: the two statements touch. -/
theorem ofSource_isBody_import_in_default :
    ∃ src m, src = "#!é\nexport default import('./b.mjs');" ∧
      (ofSource {} ⟨"a.mjs", by decide⟩ src).result = .ok m ∧
      ∃ tokens effects body, tokenize src = .ok tokens ∧
        IsBody src.toList tokens (editsOf src.toList effects) body ∧
        m.code = wrap ⟨"a.mjs", by decide⟩ body (Manifest.ofEffects effects) := by
  refine ⟨"#!é\nexport default import('./b.mjs');", ?_⟩
  have hok : ((ofSource {} ⟨"a.mjs", by decide⟩
      "#!é\nexport default import('./b.mjs');").result.toBool) = true := by decide +kernel
  cases hm : (ofSource {} ⟨"a.mjs", by decide⟩
      "#!é\nexport default import('./b.mjs');").result with
  | error e => rw [hm] at hok; cases hok
  | ok m =>
    obtain ⟨tokens, effects, body, htokens, -, hbody, hcode, -⟩ := ofSource_isBody hm
    exact ⟨m, rfl, rfl, tokens, effects, body, htokens, hbody, hcode⟩

end EdgeBundle.LinkedModule
