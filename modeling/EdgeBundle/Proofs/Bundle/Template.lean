import EdgeBundle.Bundle.Template
import EdgeBundle.Proofs.Logged

/-!
# Template engines

What a template engine does with text, with fields and with other templates is its documented
behavior; what becomes of a whole template follows. A template without other templates has a text in
the contexts that have its fields, and only there. The values stand in it as the escape function
leaves them.

## Main definitions

* `TemplateEngine.Documented`: an engine behaves as it is documented.
* `Template.textIn`: text of a template in a context.
* `TemplateRegistry.expand`: a template with the parts of other templates put in.

## Main statements

* `Template.source_of_read`: reading a source leaves no character out.
* `TemplateEngine.documented_standard`: the standard engine is documented.
* `TemplateEngine.Documented.exists_renderParts_eq_ok_iff`: templates need their fields.
* `TemplateEngine.Documented.renderParts_expand`: text of a template with other templates in it.
-/

namespace EdgeBundle

namespace TemplatePart

/-- Source of a part. -/
def source : TemplatePart → List Char
  | text s => s
  | value field => '\x7b' :: '\x7b' :: (field.toList ++ ['\x7d', '\x7d'])
  | template name =>
    '\x7b' :: '\x7b' :: '>' :: ' ' :: (name.toList ++ ['\x7d', '\x7d', '\n'])

/-- Whether a part stands for another template. -/
def isTemplate : TemplatePart → Bool
  | template _ => true
  | _ => false

theorem isTemplate_iff {part : TemplatePart} :
    part.isTemplate = true ↔ ∃ name, part = template name := by
  cases part <;> simp [isTemplate]

/-- Text of a part in a context. What the context does not have leaves nothing. -/
def textIn (escape : String → String) (context : Json) : TemplatePart → String
  | text s => String.ofList s
  | value field => ((context.get? field).map (escape ∘ Template.valueText)).getD ""
  | template _ => ""

end TemplatePart

namespace Template

variable {escape : String → String} {context : Json} {t : Template}

/-! ## Sources -/

/-- Source of a template. -/
def source (t : Template) : List Char :=
  t.flatMap TemplatePart.source

theorem source_consChar (c : Char) (t : Template) : source (consChar c t) = c :: source t := by
  fun_cases consChar c t <;> rfl

/-- What has been read of a tag already. -/
def Place.before : Place → List Char
  | text _ => []
  | tag _ content => '\x7b' :: '\x7b' :: content

/-- The parts of a template are all that its source says. -/
theorem source_of_read {place : Place} {cs : List Char} (h : read place cs = .ok t) :
    source t = place.before ++ cs := by
  -- inside a tag, what has been read of it is not yet in the template
  fun_induction read place cs generalizing t with
  | case1 =>
    cases h
    rfl
  | case2 => cases h
  | case3 atStart rest ih => exact ih h
  | case4 atStart c rest _ _ ih =>
    obtain ⟨t', hread, ht⟩ := Except.bind_eq_ok_iff.mp h
    cases ht
    rw [source_consChar, ih hread]
    rfl
  | case5 => cases h
  | case6 name rest hname ih =>
    obtain ⟨t', hread, ht⟩ := Except.bind_eq_ok_iff.mp h
    cases ht
    have hrest : source t' = rest := ih hread
    simpa [source, TemplatePart.source, Place.before] using hrest
  | case7 => cases h
  | case8 atStart content rest _ hname ih =>
    obtain ⟨t', hread, ht⟩ := Except.bind_eq_ok_iff.mp h
    cases ht
    have hrest : source t' = rest := ih hread
    simpa [source, TemplatePart.source, Place.before] using hrest
  | case9 => cases h
  | case10 atStart content c rest _ _ ih =>
    rw [ih h]
    simp [Place.before]

/-! ## Fields and texts -/

/-- Fields of a template, in order. -/
def fields (t : Template) : List String :=
  t.filterMap fun
    | .value field => some field
    | _ => none

/-- No part of the template stands for another template. -/
def IsFlat (t : Template) : Prop :=
  ∀ part ∈ t, part.isTemplate = false

/-- Text of a template in a context. -/
def textIn (escape : String → String) (context : Json) (t : Template) : String :=
  String.join (t.map (TemplatePart.textIn escape context))

theorem mem_fields {field : String} : field ∈ t.fields ↔ .value field ∈ t := by
  rw [fields, List.mem_filterMap]
  refine ⟨fun ⟨part, hpart, h⟩ => ?_, fun h => ⟨_, h, rfl⟩⟩
  cases part <;> cases h
  exact hpart

theorem textIn_append (escape : String → String) (context : Json) (s t : Template) :
    textIn escape context (s ++ t) = textIn escape context s ++ textIn escape context t := by
  rw [textIn, List.map_append, String.join_append, textIn, textIn]

theorem textIn_singleton (escape : String → String) (context : Json) (part : TemplatePart) :
    textIn escape context [part] = part.textIn escape context := by
  simp [textIn, String.join_cons]

theorem textIn_flatMap (escape : String → String) (context : Json) (f : TemplatePart → Template)
    (t : Template) : textIn escape context (t.flatMap f) =
      String.join (t.map fun part => textIn escape context (f part)) := by
  induction t with
  | nil => rfl
  | cons part t ih =>
    rw [List.flatMap_cons, textIn_append, ih, List.map_cons, String.join_cons]

end Template

/-! ## Templates inside each other -/

namespace TemplateRegistry

/-- The parts that a part stands for. -/
def partsOf (r : TemplateRegistry) : TemplatePart → Template
  | .template name => (r.find? name).getD []
  | part => [part]

theorem partsOf_eq_singleton {r : TemplateRegistry} {part : TemplatePart}
    (h : part.isTemplate = false) : r.partsOf part = [part] := by
  cases part with
  | template name => cases h
  | _ => rfl

/-- The template with the parts of other templates put in. -/
def expand (r : TemplateRegistry) (t : Template) : Template :=
  t.flatMap r.partsOf

/-- The other templates that a template takes in are registered, and take in no more. -/
def IsShallow (r : TemplateRegistry) (t : Template) : Prop :=
  ∀ name, .template name ∈ t → ∃ inner, r.find? name = some inner ∧ inner.IsFlat

end TemplateRegistry

/-! ## Engines -/

namespace TemplateEngine

variable {engine : TemplateEngine} {r : TemplateRegistry} {context : Json} {t : Template}

/-- An engine does what its documentation says about the tags of the reader. It may know more. -/
structure Documented (engine : TemplateEngine) : Prop where
  /-- Sources that the reader accepts have the parts that it finds. -/
  compile_of_read : ∀ {source t}, Template.read (.text true) source.toList = .ok t →
    engine.compile source = .ok t
  /-- Text stays as it is. -/
  renderPart_text : ∀ r context s, engine.renderPart r context (.text s) = .ok (String.ofList s)
  /-- The value of a field goes through the escape function. -/
  renderPart_value : ∀ r {context : Json} {field value}, context.get? field = some value →
    engine.renderPart r context (.value field) = .ok (r.escape (Template.valueText value))
  /-- In a strict registry a field without value is an error. -/
  exists_renderPart_missing : ∀ {r : TemplateRegistry} {context : Json} {field},
    r.strict = true → context.get? field = none →
    ∃ e, engine.renderPart r context (.value field) = .error e
  /-- A registered template is rendered in the same context. -/
  renderPart_template : ∀ {r : TemplateRegistry} context {name t}, r.find? name = some t →
    t.IsFlat → engine.renderPart r context (.template name) = r.renderParts engine context t

theorem standardPart_of_flat {part : TemplatePart} (h : part.isTemplate = false) (depth : Nat) :
    standardPart r context depth part = standardPart r context r.templates.length part := by
  cases part with
  | template name => cases h
  | _ => simp only [standardPart]

theorem mapM_standardPart_of_flat (h : t.IsFlat) (depth : Nat) :
    t.mapM (standardPart r context depth) = t.mapM (standardPart r context r.templates.length) := by
  induction t with
  | nil => rfl
  | cons part t ih =>
    obtain ⟨hpart, hrest⟩ := List.forall_mem_cons.mp h
    rw [List.mapM_cons, List.mapM_cons, standardPart_of_flat hpart, ih hrest]

theorem documented_standard : standard.Documented where
  compile_of_read h := h
  renderPart_text r context s := by simp only [standard, standardPart]
  renderPart_value r {context field value} h := by simp only [standard, standardPart, h]
  exists_renderPart_missing {r context field} hstrict h :=
    ⟨_, by simp only [standard, standardPart, h, hstrict, if_true]; rfl⟩
  renderPart_template {r} context {name t} hname hflat := by
    -- a registry with a template in it has a depth for its parts
    obtain ⟨depth, hdepth⟩ : ∃ depth, r.templates.length = depth + 1 := by
      refine Nat.exists_eq_add_one.mpr (List.length_pos_iff.mpr fun hnil => ?_)
      simp [TemplateRegistry.find?, hnil] at hname
    simp only [standard, TemplateRegistry.renderParts, ← mapM_standardPart_of_flat hflat depth]
    simp only [hdepth, standardPart, hname]

namespace Documented

variable (h : engine.Documented)

include h

theorem renderPart_eq_ok {part : TemplatePart} (hflat : part.isTemplate = false)
    (hfield : ∀ f, part = .value f → (context.get? f).isSome) :
    engine.renderPart r context part = .ok (part.textIn r.escape context) := by
  cases part with
  | text s => exact h.renderPart_text r context s
  | value field =>
    obtain ⟨value, hvalue⟩ := Option.isSome_iff_exists.mp (hfield field rfl)
    rw [h.renderPart_value r hvalue, TemplatePart.textIn, hvalue]
    rfl
  | template name => cases hflat

theorem renderParts_eq_ok (hflat : t.IsFlat)
    (hfields : ∀ f ∈ t.fields, (context.get? f).isSome) :
    r.renderParts engine context t = .ok (t.textIn r.escape context) := by
  have htexts := Except.mapM_eq_ok fun part hpart =>
    h.renderPart_eq_ok (r := r) (hflat part hpart) fun f hf =>
      hfields f (Template.mem_fields.mpr (hf ▸ hpart))
  rw [TemplateRegistry.renderParts, htexts]
  rfl

/-- In a strict registry a template without other templates has a text exactly in the contexts that
have its fields. -/
theorem exists_renderParts_eq_ok_iff (hstrict : r.strict = true) (hflat : t.IsFlat) :
    (∃ text, r.renderParts engine context t = .ok text) ↔
      ∀ f ∈ t.fields, (context.get? f).isSome := by
  refine ⟨fun ⟨text, htext⟩ f hf => ?_, fun hfields => ⟨_, h.renderParts_eq_ok hflat hfields⟩⟩
  obtain ⟨texts, htexts, -⟩ := Except.bind_eq_ok_iff.mp htext
  obtain ⟨value, hvalue⟩ := Except.exists_eq_ok_of_mapM htexts (Template.mem_fields.mp hf)
  cases hget : context.get? f with
  | some value => rfl
  | none =>
    obtain ⟨e, he⟩ := h.exists_renderPart_missing hstrict hget
    rw [he] at hvalue
    cases hvalue

/-- A template is rendered like the parts that are put together in it. -/
theorem renderParts_expand (hshallow : r.IsShallow t)
    (hfields : ∀ f ∈ (r.expand t).fields, (context.get? f).isSome) :
    r.renderParts engine context t = .ok ((r.expand t).textIn r.escape context) := by
  -- part by part, since another template is rendered in the same context
  have hparts : ∀ part ∈ t, engine.renderPart r context part =
      .ok ((r.partsOf part).textIn r.escape context) := by
    intro part hpart
    have hinner : ∀ f ∈ (r.partsOf part).fields, (context.get? f).isSome := by
      intro f hf
      refine hfields f (Template.mem_fields.mpr (List.mem_flatMap.mpr ⟨part, hpart, ?_⟩))
      exact Template.mem_fields.mp hf
    cases hkind : part.isTemplate with
    | false =>
      rw [TemplateRegistry.partsOf_eq_singleton hkind] at hinner ⊢
      rw [Template.textIn_singleton]
      exact h.renderPart_eq_ok hkind fun f hf =>
        hinner f (Template.mem_fields.mpr (hf ▸ List.mem_cons_self))
    | true =>
      obtain ⟨name, rfl⟩ := TemplatePart.isTemplate_iff.mp hkind
      obtain ⟨inner, hname, hflat⟩ := hshallow name hpart
      rw [TemplateRegistry.partsOf, hname] at hinner ⊢
      rw [h.renderPart_template context hname hflat, h.renderParts_eq_ok hflat hinner]
      rfl
  rw [TemplateRegistry.renderParts, Except.mapM_eq_ok hparts, TemplateRegistry.expand,
    Template.textIn_flatMap]
  rfl

end Documented

end TemplateEngine

end EdgeBundle
