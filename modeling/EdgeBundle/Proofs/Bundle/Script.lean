import EdgeBundle.Bundle.Script
import EdgeBundle.Proofs.Bundle.Template

/-!
# The templates of the script

The sources of the script and of the stand-ins are in the syntax of the reader, so that every
documented engine registers the same two templates. Put together, they are a text with the fields of
the script.

## Main definitions

* `Template.Spelled`: the characters of lines.
* `TemplateRegistry.script`: the registry of every documented engine.
* `Template.bundle`: the script with the stand-ins put in.

## Main statements

* `TemplateEngine.Documented.ofEngine_eq_ok`: documented engines register the templates.
* `TemplateEngine.Documented.renderWith_bundle`: the text of the script.
* `Template.fields_bundle`: the fields of the script.
-/

namespace EdgeBundle

namespace Template

/-! ## Characters of lines -/

/-- The characters of lines, each with its line break. A list of characters is found for a literal
by unification, without decoding the bytes of the literal. -/
inductive Spelled : List String → List Char → Prop
  | nil : Spelled [] []
  | cons {lines : List String} {s cs : List Char} (h : Spelled lines cs) :
      Spelled (String.ofList s :: lines) (s ++ '\n' :: cs)
  | append {lines : List String} {s s' cs : List Char} (h : Spelled lines cs) :
      Spelled ((String.ofList s ++ String.ofList s') :: lines) (s ++ s' ++ '\n' :: cs)

variable {lines : List String}

theorem Spelled.toList_ofLines {cs : List Char} (h : Spelled lines cs) :
    (ofLines lines).toList = cs := by
  induction h with
  | nil => rfl
  | cons h ih => simp [← ih, ofLines, String.join_cons]
  | append h ih => simp [← ih, ofLines, String.join_cons]

/-! ## Tags -/

/-- The parts of a template that are no text. -/
def tags (t : Template) : Template :=
  t.filter fun
    | .text _ => false
    | _ => true

/-- Parts of a source in lines. A source with other tags has none. -/
def ofSource (lines : List String) : Template :=
  (read (.text true) (ofLines lines).toList).toOption.getD []

/-- A source is read with the given tags. -/
def ReadsTags (lines : List String) (expected : Template) : Prop :=
  read (.text true) (ofLines lines).toList = .ok (ofSource lines) ∧ (ofSource lines).tags = expected

theorem Spelled.readsTags {expected : Template}
    (h : ∃ cs, Spelled lines cs ∧ (read (.text true) cs).toOption.map tags = some expected) :
    ReadsTags lines expected := by
  obtain ⟨cs, hcs, hread⟩ := h
  obtain ⟨t, ht, htags⟩ := exists_eq_ok_of_map hread
  rw [← hcs.toList_ofLines] at ht
  have hsource : ofSource lines = t := by rw [ofSource, ht]; rfl
  exact ⟨by rw [ht, hsource], by rw [hsource, htags]⟩

theorem readsTags_polyfillsLines : ReadsTags polyfillsLines [.value "min_contained_len"] := by
  apply Spelled.readsTags
  apply Exists.intro
  apply And.intro
  -- the lines give the characters, which the reader then runs on
  · repeat first | apply Spelled.cons | apply Spelled.append
    exact .nil
  · decide +kernel

theorem readsTags_bundleLines : ReadsTags bundleLines
    [.value "generator", .value "module_count", .value "static_count", .value "registry",
      .value "vfs", .template "polyfills", .value "edge_flag", .value "main_url",
      .value "edge_flag", .value "edge_global", .value "modules", .value "edge_global",
      .value "edge_global", .value "edge_global"] := by
  apply Spelled.readsTags
  apply Exists.intro
  apply And.intro
  · repeat first | apply Spelled.cons | apply Spelled.append
    exact .nil
  · decide +kernel

theorem template_mem_tags_iff {t : Template} {name : String} :
    .template name ∈ tags t ↔ .template name ∈ t := by
  simp [tags]

theorem fields_tags (t : Template) : fields (tags t) = fields t := by
  rw [fields, tags, List.filterMap_filter, fields]
  congr
  funext part
  cases part <;> rfl

theorem tags_expand (r : TemplateRegistry) (t : Template) :
    tags (r.expand t) = (tags t).flatMap fun part => tags (r.partsOf part) := by
  induction t with
  | nil => rfl
  | cons part t ih =>
    rw [TemplateRegistry.expand] at ih ⊢
    rw [List.flatMap_cons, tags, List.filter_append, ← tags, ← tags, ih]
    cases part <;> simp [tags, TemplateRegistry.partsOf]

end Template

/-! ## The script -/

namespace TemplateRegistry

open Template

/-- The registry with the script and the stand-ins. -/
def script : TemplateRegistry where
  strict := true
  escape := id
  templates := [("polyfills", ofSource polyfillsLines), ("bundle", ofSource bundleLines)]

theorem find?_script_polyfills : script.find? "polyfills" = some (ofSource polyfillsLines) := rfl

theorem find?_script_bundle : script.find? "bundle" = some (ofSource bundleLines) := rfl

theorem isFlat_polyfills : (ofSource polyfillsLines).IsFlat := by
  intro part hpart
  cases part with
  | template name =>
    rw [← template_mem_tags_iff, readsTags_polyfillsLines.2] at hpart
    simp at hpart
  | _ => rfl

theorem isShallow_bundle : script.IsShallow (ofSource bundleLines) := by
  intro name hname
  rw [← template_mem_tags_iff, readsTags_bundleLines.2] at hname
  obtain rfl : name = "polyfills" := by simpa using hname
  exact ⟨_, find?_script_polyfills, isFlat_polyfills⟩

end TemplateRegistry

namespace Template

open TemplateRegistry

/-- The script with the stand-ins put in. -/
def bundle : Template :=
  script.expand (ofSource bundleLines)

theorem fields_bundle : bundle.fields =
    ["generator", "module_count", "static_count", "registry", "vfs", "min_contained_len",
      "edge_flag", "main_url", "edge_flag", "edge_global", "modules", "edge_global",
      "edge_global", "edge_global"] := by
  have hinner : script.partsOf (.template "polyfills") = ofSource polyfillsLines := by
    rw [partsOf, find?_script_polyfills, Option.getD_some]
  rw [← fields_tags, bundle, tags_expand, readsTags_bundleLines.2]
  simp only [List.flatMap_cons, hinner, readsTags_polyfillsLines.2]
  rfl

end Template

namespace TemplateEngine.Documented

open TemplateRegistry

variable {engine : TemplateEngine} (h : engine.Documented)

include h

/-- Every documented engine registers both templates. -/
theorem ofEngine_eq_ok : ofEngine engine = .ok script := by
  have hbundle := h.compile_of_read Template.readsTags_bundleLines.1
  have hpolyfills := h.compile_of_read Template.readsTags_polyfillsLines.1
  simp only [ofEngine, register, hbundle, hpolyfills]
  rfl

/-- The script in a context that has its fields. -/
theorem renderWith_bundle {context : Json}
    (hfields : ∀ f ∈ Template.bundle.fields, (context.get? f).isSome) :
    Template.renderWith engine "bundle" context = .ok (Template.bundle.textIn id context) := by
  have htext : script.render engine "bundle" context =
      .ok (Template.bundle.textIn id context) := by
    rw [render, find?_script_bundle]
    exact h.renderParts_expand isShallow_bundle hfields
  refine Except.bind_eq_ok_iff.mpr ⟨script, h.ofEngine_eq_ok, ?_⟩
  rw [htext, Except.mapError]

end TemplateEngine.Documented

end EdgeBundle
