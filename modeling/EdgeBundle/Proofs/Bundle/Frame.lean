import EdgeBundle.Proofs.Bundle.Assemble

/-!
# The frame of a bundle

The script reads the embedded files and the code of the modules once each, and puts them in as they
are, under every documented engine. All other text of a bundle, its frame, is the same whatever the
files and the modules say.

## Main definitions

* `Template.before` and `Template.after`: a template cut at a field.
* `Bundle.frame`: text around the embedded files and the code.

## Main statements

* `Template.textIn_congr`: a template reads its fields and nothing else.
* `Template.textIn_eq_of_mem`: a template cut at a field.
* `Bundle.result_assembleWith`: a bundle is its frame with the files and the code put in.
-/

namespace EdgeBundle

namespace Template

variable {escape : String → String} {context other : Json} {field : String} {t : Template}

/-! ## Texts of templates -/

/-- The text of a template hangs on nothing but the values of its fields. -/
theorem textIn_congr (h : ∀ f ∈ t.fields, context.get? f = other.get? f) :
    textIn escape context t = textIn escape other t := by
  have hparts : ∀ part ∈ t, part.textIn escape context = part.textIn escape other := by
    intro part hpart
    cases part with
    | value field => rw [TemplatePart.textIn, h field (mem_fields.mpr hpart), TemplatePart.textIn]
    | _ => rfl
  rw [textIn, textIn, List.map_congr_left hparts]

theorem textIn_cons (escape : String → String) (context : Json) (part : TemplatePart)
    (t : Template) :
    textIn escape context (part :: t) = part.textIn escape context ++ textIn escape context t := by
  rw [textIn, List.map_cons, String.join_cons, textIn]

/-! ## Templates cut at a field -/

/-- The parts before the first place of a field. -/
def before (field : String) (t : Template) : Template :=
  t.takeWhile (· ≠ .value field)

/-- The parts after the first place of a field. -/
def after (field : String) (t : Template) : Template :=
  (t.dropWhile (· ≠ .value field)).tail

theorem before_append_after (h : field ∈ t.fields) :
    before field t ++ .value field :: after field t = t := by
  rw [mem_fields] at h
  induction t with
  | nil => cases h
  | cons part t ih =>
    by_cases hpart : part = .value field
    · simp [before, after, hpart]
    · have hrest : .value field ∈ t := (List.mem_cons.mp h).resolve_left (Ne.symm hpart)
      simpa [before, after, hpart] using ih hrest

theorem textIn_eq_of_mem (h : field ∈ t.fields) (escape : String → String) (context : Json) :
    textIn escape context t = textIn escape context (before field t) ++
      ((TemplatePart.value field).textIn escape context ++
        textIn escape context (after field t)) := by
  rw [← textIn_cons, ← textIn_append, before_append_after h]

theorem fields_before (field : String) (t : Template) :
    fields (before field t) = (fields t).takeWhile (· ≠ field) := by
  induction t with
  | nil => rfl
  | cons part t ih =>
    cases part with
    | value f =>
      by_cases hf : f = field
      · simp [before, fields, hf]
      · simpa [before, fields, hf] using ih
    | _ => simpa [before, fields] using ih

theorem fields_after (field : String) (t : Template) :
    fields (after field t) = ((fields t).dropWhile (· ≠ field)).tail := by
  induction t with
  | nil => rfl
  | cons part t ih =>
    cases part with
    | value f =>
      by_cases hf : f = field
      · simp [after, fields, hf]
      · simpa [after, fields, hf] using ih
    | _ => simpa [after, fields] using ih

end Template

/-! ## Bundles -/

namespace Bundle

open Template

/-- The text of a bundle around the embedded files and the code of the modules. -/
structure Frame where
  /-- Text before the embedded files. -/
  before : String
  /-- Text between the embedded files and the code. -/
  between : String
  /-- Text after the code. -/
  after : String

/-- The fields of the script other than the embedded files and the code, with values. -/
def frameContext (edgeGlobal mainUrl : String) (moduleCount fileCount : Nat) : Json :=
  .object
    [("generator", .string generator), ("module_count", .nat moduleCount),
      ("static_count", .nat fileCount), ("registry", .string LinkedModule.registry),
      ("min_contained_len", .nat Vfs.minContainedLength),
      ("edge_flag", .string Patch.platformFlag), ("edge_global", .string edgeGlobal),
      ("main_url", .string (quoted mainUrl))]

/-- The frame of every bundle with the given global, main module, and numbers of modules and
files. -/
def frame (edgeGlobal mainUrl : String) (moduleCount fileCount : Nat) : Frame where
  before := textIn id (frameContext edgeGlobal mainUrl moduleCount fileCount)
    (Template.bundle.before "vfs")
  between := textIn id (frameContext edgeGlobal mainUrl moduleCount fileCount)
    ((Template.bundle.after "vfs").before "modules")
  after := textIn id (frameContext edgeGlobal mainUrl moduleCount fileCount)
    ((Template.bundle.after "vfs").after "modules")

/-- A part of the script that has neither field reads nothing but the frame. -/
theorem textIn_context_eq {config : Config} {vfs : Vfs} {moduleCount : Nat} {code : String}
    {t : Template} (hvfs : "vfs" ∉ t.fields) (hmodules : "modules" ∉ t.fields) :
    textIn id (context config moduleCount vfs code) t =
      textIn id (frameContext config.edgeGlobal config.mainUrl moduleCount vfs.size) t := by
  refine textIn_congr fun f hf => ?_
  have hne : f ≠ "vfs" ∧ f ≠ "modules" :=
    ⟨fun h => hvfs (h ▸ hf), fun h => hmodules (h ▸ hf)⟩
  simp [context, frameContext, Json.get?, List.find?_cons, hne.1.symm, hne.2.symm]

/-- The script is its frame with the literal of the embedded files and the code put in. -/
theorem textIn_bundle (config : Config) (moduleCount : Nat) (vfs : Vfs) (code : String) :
    textIn id (context config moduleCount vfs code) Template.bundle =
      (frame config.edgeGlobal config.mainUrl moduleCount vfs.size).before ++ vfs.literal ++
        (frame config.edgeGlobal config.mainUrl moduleCount vfs.size).between ++ code ++
        (frame config.edgeGlobal config.mainUrl moduleCount vfs.size).after := by
  have hvfs : "vfs" ∈ Template.bundle.fields := by
    rw [fields_bundle]
    decide
  have hmodules : "modules" ∈ fields (after "vfs" Template.bundle) := by
    rw [fields_after, fields_bundle]
    decide
  -- the template is cut at the files, and what comes after them at the code
  rw [textIn_eq_of_mem hvfs, textIn_eq_of_mem hmodules, textIn_context_eq, textIn_context_eq,
    textIn_context_eq]
  · simp only [frame, String.append_assoc]
    rfl
  -- neither field comes up a second time
  all_goals
    simp only [fields_before, fields_after, fields_bundle]
    decide

/-- Under every documented engine a bundle is its frame with the literal of the embedded files and
the patched code of the modules put in as they are. -/
theorem result_assembleWith {engine : TemplateEngine} (h : engine.Documented) (config : Config)
    (patches : List Patch) (modules : List LinkedModule) (vfs : Vfs) :
    ∃ code outcomes,
      (Patch.applyAll patches ("\n".intercalate (modules.map (·.code))).toList :
        Logged Error _).result = .ok (code, outcomes) ∧
      (assembleWith engine config patches modules vfs).result =
        .ok ⟨(frame config.edgeGlobal config.mainUrl modules.length vfs.size).before ++
          vfs.literal ++ (frame config.edgeGlobal config.mainUrl modules.length vfs.size).between ++
          String.ofList code ++
          (frame config.edgeGlobal config.mainUrl modules.length vfs.size).after, outcomes⟩ := by
  obtain ⟨⟨code, outcomes⟩, hpatched⟩ := Patch.exists_result_applyAll (ε := Error) patches
    ("\n".intercalate (modules.map (·.code))).toList
  refine ⟨code, outcomes, hpatched, ?_⟩
  rw [result_assembleWith_eq_ok h hpatched, textIn_bundle]

section Sample

/-- Modules with tags, HTML and references to groups in their code, and a line for the patches. -/
def taggedModules : List LinkedModule :=
  [⟨⟨"head.mjs", by decide⟩,
      "a(`\x7b\x7bvfs\x7d\x7d & <b> \x7b\x7b> polyfills\x7d\x7d $1`);", [], []⟩,
    ⟨⟨"tail.mjs", by decide⟩, "trapUnhandledErrors();\nb('\x7b\x7b\x7b\"');", [], []⟩]

/-- A file with tags and HTML. -/
def taggedFiles : Vfs :=
  Vfs.empty.insert ⟨"\x7b\x7bx\x7d\x7d.html", by decide⟩ "<a>\x7b\x7bmodules\x7d\x7d & $1</a>"

/-- The line for the patches is the only text that does not stay as it is. -/
theorem result_assembleWith_tags :
    taggedFiles.literal =
        "\x7b\"\x7b\x7bx\x7d\x7d.html\":\"<a>\x7b\x7bmodules\x7d\x7d & $1</a>\"\x7d" ∧
      ∃ outcomes, (assembleWith .standard {} Patch.defaults taggedModules taggedFiles).result =
        .ok ⟨(frame "Bunny" "file:///server/index.mjs" 2 1).before ++ taggedFiles.literal ++
          (frame "Bunny" "file:///server/index.mjs" 2 1).between ++
          "a(`\x7b\x7bvfs\x7d\x7d & <b> \x7b\x7b> polyfills\x7d\x7d $1`);\nb('\x7b\x7b\x7b\"');" ++
          (frame "Bunny" "file:///server/index.mjs" 2 1).after, outcomes⟩ := by
  refine ⟨by decide +kernel, ?_⟩
  obtain ⟨code, outcomes, hcode, hresult⟩ := result_assembleWith
    TemplateEngine.documented_standard {} Patch.defaults taggedModules taggedFiles
  rw [Patch.result_applyAll_defaults] at hcode
  obtain ⟨rfl, rfl⟩ := Prod.mk.inj (Except.ok.inj hcode)
  have hpatched : String.ofList (Patch.removeErrorTrap.apply (Patch.guardServe.apply
      ("\n".intercalate (taggedModules.map (·.code))).toList).1).1 =
        "a(`\x7b\x7bvfs\x7d\x7d & <b> \x7b\x7b> polyfills\x7d\x7d $1`);\nb('\x7b\x7b\x7b\"');" := by
    decide +kernel
  rw [hpatched] at hresult
  exact ⟨_, hresult⟩

end Sample

end Bundle

end EdgeBundle
