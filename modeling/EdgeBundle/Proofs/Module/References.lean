import EdgeBundle.Proofs.Module.Binding
import EdgeBundle.Proofs.Module.Mention

/-!
# References of a module

The references of a linked module are the mentions of other modules that the search for statements
finds, in source order, less those that name a builtin.

## Main definitions

* `referenceOf?`: the reference that a mention makes.

## Main statements

* `reference_of_effect`: the reference that a statement makes.
* `ofSource_references`: the references of a linked module.
-/

namespace EdgeBundle.LinkedModule

open Statement

variable {config : Config} {path : RelPath} {src : String} {effects : List Effect}

/-- A statement makes the reference of the specifier that it names. -/
theorem reference_of_effect {site : Site} {line : Nat} {s : Statement} {effect : Effect}
    (h : (LinkedModule.effect site line s).result = .ok effect) :
    (∀ specifier kind, s.form.named? = some (specifier, kind) →
        ∃ target, site.classify specifier = .ok target) ∧
      effect.reference = s.form.named?.bind fun named =>
        site.reference? named.1 named.2 line := by
  obtain ⟨start, stop, form⟩ := s
  cases result_effect_eq_ok_iff.mp h with
  | bareImport htarget | importCall htarget =>
    exact ⟨by rintro _ _ ⟨⟩; exact ⟨_, htarget⟩, rfl⟩
  | builtinCall htarget hbuiltin =>
    exact ⟨by rintro _ _ ⟨⟩; exact ⟨_, htarget⟩,
      (Site.reference?_of_isBuiltin htarget hbuiltin).symm⟩
  | importFrom hbinds | exportNamesFrom hbinds | exportAllAs hbinds | exportAll hbinds =>
    exact ⟨by rintro _ _ ⟨⟩; exact ⟨_, hbinds.classify⟩, rfl⟩
  | computedImport | exportNames | exportDefaultDeclaration | exportDefault | exportDeclaration =>
    exact ⟨nofun, rfl⟩

/-- Elements that correspond to others give the same results in the same order. -/
theorem filterMap_eq_of_forall₂ {α β γ : Type} {R : α → β → Prop} {f : α → Option γ}
    {g : β → Option γ} {as : List α} {bs : List β} (h : List.Forall₂ R as bs)
    (hfg : ∀ a ∈ as, ∀ b, R a b → g b = f a) : bs.filterMap g = as.filterMap f := by
  induction h with
  | nil => rfl
  | @cons a b as bs hab _ ih =>
    have hrest := ih fun a ha => hfg a (List.mem_cons_of_mem _ ha)
    rw [List.filterMap_cons, List.filterMap_cons, hfg a List.mem_cons_self b hab, hrest]

/-- A later character stands on no earlier line. -/
theorem lineAt_le_lineAt {src : List Char} {a b : Nat} (ha : IsBoundary src a)
    (hb : IsBoundary src b) (hle : a ≤ b) : lineAt src a ≤ lineAt src b := by
  obtain ⟨before, rest, rfl, rfl⟩ := ha
  obtain ⟨between, after, rfl, rfl⟩ := hb.exists_between hle
  rw [lineAt, lineAt, takeBytes_append, ← utf8Width_append, ← List.append_assoc, takeBytes_append,
    List.count_append]
  omega

/-- The reference that a mention makes in a source, on the line of its keyword. -/
def referenceOf? (config : Config) (path : RelPath) (src : String) (x : Mention) :
    Option Reference :=
  (Site.ofConfig config path).reference? (specifierText x.quote) x.kind
    (lineAt src.toList x.keyword.start)

/-- A reference has the line of its mention. -/
theorem line_of_referenceOf? {x : Mention} {r : Reference}
    (h : referenceOf? config path src x = some r) :
    r.line = lineAt src.toList x.keyword.start := by
  unfold referenceOf? Site.reference? at h
  split at h
  · cases h; rfl
  · cases h; rfl
  · cases h
  · cases h

/-- The keyword of a mention is one of the tokens. -/
theorem keyword_mem {tokens : List Token} {x : Mention} (h : x.StandsIn tokens) :
    x.keyword ∈ tokens := by
  obtain ⟨ts, hts, hx⟩ := h
  obtain ⟨head, rest, rfl, -⟩ := hx.exists_split
  exact hts.mem List.mem_cons_self

/-- The references of a linked module are its mentions of other modules that the search for
statements finds, each once and in source order, less those that name a builtin. Every mention can
be classified, and its line is told by the line breaks before its keyword. -/
theorem ofSource_references {m : LinkedModule} (h : (ofSource config path src).result = .ok m) :
    ∃ tokens mentions, tokenize src = .ok tokens ∧ FindsMentions tokens mentions ∧
      (∀ x ∈ mentions,
        (∃ target, (Site.ofConfig config path).classify (specifierText x.quote) = .ok target) ∧
          ∃ before after, src.toList = before ++ (x.keyword.text.toList ++ after) ∧
            utf8Width before = x.keyword.start ∧
            lineAt src.toList x.keyword.start = 1 + before.count '\n') ∧
      m.references = mentions.filterMap (referenceOf? config path src) ∧
      m.references.Pairwise fun a b => a.line ≤ b.line := by
  obtain ⟨effects, heffectsOf, rfl⟩ := result_ofSource_eq_ok_iff.mp h
  obtain ⟨tokens, htokens, hfault, heffects⟩ := result_effectsOf_eq_ok_iff.mp heffectsOf
  have hlt : ∀ t ∈ tokens, t.start < t.stop := fun t ht =>
    (Lexer.tokenize_eq_ok_iff.mp htokens).covers.start_lt_stop ht
  obtain ⟨mention, hfinds, hmention⟩ :=
    exists_findsMentions (inOrder_of_tokenize htokens) hlt hfault
  have hkeyword : ∀ x ∈ (outline false tokens).statements.filterMap mention,
      x.keyword.StandsAt src.toList := fun x hx =>
    Lexer.standsAt_of_tokenize htokens (keyword_mem ((hfinds.mem_iff x).mp hx).1)
  -- an effect refers to what the mention of its statement names
  have hreferences : (ofEffects path src.toList effects).references =
      ((outline false tokens).statements.filterMap mention).filterMap
        (referenceOf? config path src) := by
    rw [List.filterMap_filterMap]
    refine filterMap_eq_of_forall₂ heffects fun s hs e he => ?_
    obtain ⟨hstart, hnamed⟩ := hmention s hs
    rw [(reference_of_effect he).2, hnamed]
    cases hx : mention s with
    | none => rfl
    | some x =>
      rw [hstart x hx]
      simp only [Option.map_some, Option.bind_some, referenceOf?]
  refine ⟨tokens, _, htokens, hfinds, fun x hx => ⟨?_, ?_⟩, hreferences, ?_⟩
  · obtain ⟨s, hs, hx⟩ := List.mem_filterMap.mp hx
    obtain ⟨e, -, he⟩ := exists_mem_of_forall₂ heffects hs
    refine (reference_of_effect he).1 _ x.kind ?_
    rw [(hmention s hs).2, hx]
    rfl
  · obtain ⟨before, after, hsrc, hstart⟩ := hkeyword x hx
    refine ⟨before, after, hsrc, hstart, ?_⟩
    rw [lineAt, ← hstart, hsrc, takeBytes_append, Nat.add_comm]
  -- the keywords stand in order, so the lines do
  · rw [hreferences]
    refine List.pairwise_filterMap.mpr (hfinds.pairwise.imp_of_mem ?_)
    intro x y hx hy hlt a ha b hb
    rw [line_of_referenceOf? ha, line_of_referenceOf? hb]
    exact lineAt_le_lineAt (hkeyword x hx).isBoundary_start (hkeyword y hy).isBoundary_start
      (Nat.le_of_lt hlt)

/-- A reference of each kind, and a builtin between them. -/
theorem ofSource_references_kinds :
    ∃ src m tokens mentions, src = "import './a.mjs';\nexport \x7b x \x7d from 'b';\n" ++
        "import 'node:fs';\nexport default import('../c.mjs');" ∧
      (ofSource {} ⟨"d/e.mjs", by decide⟩ src).result = .ok m ∧ tokenize src = .ok tokens ∧
      FindsMentions tokens mentions ∧
      m.references = mentions.filterMap (referenceOf? {} ⟨"d/e.mjs", by decide⟩ src) ∧
      m.references = [⟨"./a.mjs", "d/a.mjs", .atLoad, 1⟩, ⟨"b", "b", .atLoad, 2⟩,
        ⟨"../c.mjs", "c.mjs", .onCall, 4⟩] := by
  refine ⟨"import './a.mjs';\nexport \x7b x \x7d from 'b';\n" ++
    "import 'node:fs';\nexport default import('../c.mjs');", ?_⟩
  have hok : ((ofSource {} ⟨"d/e.mjs", by decide⟩
      ("import './a.mjs';\nexport \x7b x \x7d from 'b';\n" ++
        "import 'node:fs';\nexport default import('../c.mjs');")).result.toOption.map
      LinkedModule.references) = some [⟨"./a.mjs", "d/a.mjs", .atLoad, 1⟩,
        ⟨"b", "b", .atLoad, 2⟩, ⟨"../c.mjs", "c.mjs", .onCall, 4⟩] := by decide +kernel
  cases hm : (ofSource {} ⟨"d/e.mjs", by decide⟩
      ("import './a.mjs';\nexport \x7b x \x7d from 'b';\n" ++
        "import 'node:fs';\nexport default import('../c.mjs');")).result with
  | error e => rw [hm] at hok; cases hok
  | ok m =>
    rw [hm] at hok
    obtain ⟨tokens, mentions, htokens, hfinds, -, hreferences, -⟩ := ofSource_references hm
    exact ⟨m, tokens, mentions, rfl, rfl, htokens, hfinds, hreferences, Option.some.inj hok⟩

end EdgeBundle.LinkedModule
